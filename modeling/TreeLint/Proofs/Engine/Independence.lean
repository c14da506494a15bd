import TreeLint.Proofs.Engine.Fix
import TreeLint.Proofs.Engine.Modular
import TreeLint.Proofs.Rule.Options

/-!
# Settings of one rule do not reach another

An analysis by the built-in rules is a function of the configuration, the text and the tree
(`Config.findings`), whatever parsers an engine has ready (`result_analyze_builtInFor`). This
module compares two runs under two configurations:

* `diagnosticsOf_findings`, `editsOf_findings` — what stands in an analysis under the id of a rule
  is what is kept of that rule's own visit;
* `kept_congr` — and this depends on whether the rule is selected and on its own options alone;
* `severity_of_mem_diagnosticsOf` — a severity is the one set for the rule, or the rule's own;
* `findings_highlighted` — marking diagnostics only adds highlights behind the others.

The main statement is `analyze_independent`.
-/

namespace TreeLint

/-! ### Outputs by rule -/

/-- The rule that an output belongs to. -/
def Output.ruleId : Output → String
  | .diagnostic d => d.ruleId
  | .highlight h => h.ruleId
  | .edit e => e.ruleId

/-- A diagnostic without its severity. -/
def Diagnostic.ungraded (d : Diagnostic) : OffsetRange × String × String :=
  (d.range, d.message, d.ruleId)

namespace Analysis

/-- The diagnostics of a rule. -/
def diagnosticsOf (a : Analysis) (ruleId : String) : List Diagnostic :=
  a.diagnostics.filter (·.ruleId == ruleId)

/-- The edits of a rule. -/
def editsOf (a : Analysis) (ruleId : String) : List Edit := a.edits.filter (·.ruleId == ruleId)

end Analysis

/-- Of what rules with distinct ids put out under their ids, one id leaves what its rule put
out. -/
theorem filter_ruleId_flatMap {f : Rule → List Output} {rules : List Rule}
    (hown : ∀ x ∈ rules, ∀ o ∈ f x, o.ruleId = x.id) (hids : (rules.map Rule.id).Nodup)
    {rule : Rule} (hrule : rule ∈ rules) :
    (rules.flatMap f).filter (fun o => o.ruleId == rule.id) = f rule := by
  induction rules with
  | nil => cases hrule
  | cons x rest ih =>
    rw [List.map_cons, List.nodup_cons] at hids
    have hrest : ∀ y ∈ rest, ∀ o ∈ f y, o.ruleId = y.id :=
      fun y hy => hown y (List.mem_cons_of_mem _ hy)
    rw [List.flatMap_cons, List.filter_append]
    rcases List.mem_cons.1 hrule with rfl | hmem
    · have hself : (f rule).filter (fun o => o.ruleId == rule.id) = f rule := by
        rw [List.filter_eq_self]
        intro o ho
        rw [hown rule List.mem_cons_self o ho, beq_self_eq_true]
      have hothers : (rest.flatMap f).filter (fun o => o.ruleId == rule.id) = [] := by
        rw [List.filter_eq_nil_iff]
        intro o ho
        obtain ⟨y, hy, hoy⟩ := List.mem_flatMap.1 ho
        rw [hrest y hy o hoy, beq_iff_eq]
        exact fun heq => hids.1 (heq ▸ List.mem_map_of_mem hy)
      rw [hself, hothers, List.append_nil]
    · have hfirst : (f x).filter (fun o => o.ruleId == rule.id) = [] := by
        rw [List.filter_eq_nil_iff]
        intro o ho
        rw [hown x List.mem_cons_self o ho, beq_iff_eq]
        exact fun heq => hids.1 (heq ▸ List.mem_map_of_mem hmem)
      rw [hfirst, List.nil_append, ih hrest hids.2 hmem]

/-! ### Analyses by the built-in rules -/

/-- Whether a parser's answer is taken does not depend on the parsers that are ready. -/
theorem Frontend.parse_eq_ok_iff (f : Frontend) (kind : FileKind) (answer : ParserAnswer)
    (root : Node) : (f.parse kind answer).1 = .ok root ↔ f.accept answer = .ok root := by
  by_cases hready : f.ready.contains kind = true
  · simp only [parse, prepare, if_pos hready]
  · simp only [parse, prepare, if_neg hready]
    cases answer with
    | noGrammar r => simp [accept]
    | noSetup r => simp [accept]
    | tree t =>
      exact iff_of_eq (congrArg (· = Except.ok root) (accept_congr (f := f) rfl (.tree t)))
    | nothing => rfl
    | failed r => rfl

namespace Config

variable {c c' : Config} {kind : FileKind} {s : Source} {rule : Rule}

/-- The root that a configuration takes from a parser's answer. -/
def rootOf (c : Config) (answer : ParserAnswer) : Option Node :=
  (({ rejectsErrors := c.rejectSyntaxErrors.truthy } : Frontend).accept answer).toOption

/-- What the built-in rules find under a configuration. -/
def findings (c : Config) (kind : FileKind) (text : Text) (answer : ParserAnswer) : Analysis :=
  match c.rootOf answer with
  | none => {}
  | some root =>
    c.collect (builtInRules.flatMap (c.contribution kind (Engine.sourceOf kind text root)))

/-- Whether one of the patterns matches the id of a rule. -/
def enables (c : Config) (rule : Rule) : Bool :=
  c.enabledRules.stringCodes.any (Glob.matchesCodes · (codesOf rule.id))

/-- The severity that is set for a rule if it is one of the two, and the rule's own otherwise. -/
def severityFor (c : Config) (rule : Rule) : String :=
  match c.ruleSeverities.find? rule.id with
  | some (.scalar (.str "error")) => "error"
  | some (.scalar (.str "warning")) => "warning"
  | _ => rule.info.defaultSeverity

theorem owns_of_mem_kept (hrule : rule ∈ builtInRules) :
    ∀ o ∈ c.kept kind s rule, rule.info.Owns o :=
  (yields_own_builtIn rule hrule).of_mem_kept c kind s

theorem ruleId_of_mem_contribution (hrule : rule ∈ builtInRules) :
    ∀ o ∈ c.contribution kind s rule, o.ruleId = rule.id := by
  intro o ho
  obtain ⟨x, hx, rfl⟩ := List.mem_map.1 ho
  have hown := owns_of_mem_kept hrule x hx
  cases x with
  | diagnostic d => exact hown.1
  | highlight h => exact hown
  | edit e => exact hown

theorem filter_contributions (hrule : rule ∈ builtInRules) :
    (builtInRules.flatMap (c.contribution kind s)).filter (fun o => o.ruleId == rule.id) =
      c.contribution kind s rule :=
  filter_ruleId_flatMap (fun _ hx => ruleId_of_mem_contribution hx) nodup_ids_builtInRules hrule

/-- **The diagnostics of a rule are those of its own visit**, with the severities set for it. -/
theorem diagnosticsOf_findings (hrule : rule ∈ builtInRules) (text : Text)
    (answer : ParserAnswer) :
    (c.findings kind text answer).diagnosticsOf rule.id =
      (c.rootOf answer).toList.flatMap fun root =>
        ((c.kept kind (Engine.sourceOf kind text root) rule).filterMap
          Output.diagnostic?).map c.gradedDiagnostic := by
  unfold findings Analysis.diagnosticsOf
  cases c.rootOf answer with
  | none => rfl
  | some root =>
    have hcomm : ∀ o d, Output.diagnostic? o = some d →
        (o.ruleId == rule.id) = (d.ruleId == rule.id) := by
      intro o d hod
      cases o <;> cases hod
      rfl
    simp only [diagnostics_collect, Option.toList_some, List.flatMap_singleton]
    rw [← filterMap_filter_comm hcomm, filter_contributions hrule, diagnostics_contribution]

/-- **The edits of a rule are those of its own visit.** -/
theorem editsOf_findings (hrule : rule ∈ builtInRules) (text : Text) (answer : ParserAnswer) :
    (c.findings kind text answer).editsOf rule.id =
      (c.rootOf answer).toList.flatMap fun root =>
        (c.kept kind (Engine.sourceOf kind text root) rule).filterMap Output.edit? := by
  unfold findings Analysis.editsOf
  cases c.rootOf answer with
  | none => rfl
  | some root =>
    have hcomm : ∀ o e, Output.edit? o = some e →
        (o.ruleId == rule.id) = (e.ruleId == rule.id) := by
      intro o e hoe
      cases o <;> cases hoe
      rfl
    simp only [edits_collect, Option.toList_some, List.flatMap_singleton]
    rw [← filterMap_filter_comm hcomm, filter_contributions hrule, edits_contribution]

/-- What is kept of a rule depends on its selection and on what its visit leaves alone. -/
theorem kept_congr (hselects : c.selects kind rule = c'.selects kind rule)
    (hvisit : (c.visitOf s rule).kept s.text.length = (c'.visitOf s rule).kept s.text.length) :
    c.kept kind s rule = c'.kept kind s rule := by
  rw [kept, kept, hselects, hvisit]

/-- Options that are looked up the same way agree. -/
theorem agree_of_lookup (hrule : rule ∈ builtInRules) {o o' : Options}
    (h : ∀ name : String, Entries.get? (.str name) o = Entries.get? (.str name) o') :
    (Config.default.optionsFor rule.id).Agree o o' := by
  intro p hp
  obtain ⟨name, hname⟩ := exists_name_of_mem_default rule hrule p hp
  rw [hname, h name]

/-! ### Severities and highlights -/

theorem severityFor_eq (c : Config) (rule : Rule) :
    c.severityFor rule =
      (((c.ruleSeverities.find? rule.id).bind severityOf?).map Severity.name).getD
        rule.info.defaultSeverity := by
  unfold severityFor
  split
  · rename_i heq
    rw [heq]
    rfl
  · rename_i heq
    rw [heq]
    rfl
  · rename_i herror hwarning
    have hnone : (c.ruleSeverities.find? rule.id).bind severityOf? = none := by
      rw [Option.bind_eq_none_iff]
      intro v hv
      rw [severityOf?, Option.bind_eq_none_iff]
      intro name hname
      cases v with
      | scalar a =>
        cases a with
        | str t =>
          cases hname
          rw [Severity.ofName?, if_neg, if_neg]
          · rintro rfl
            exact hwarning hv
          · rintro rfl
            exact herror hv
        | _ => cases hname
      | _ => cases hname
    rw [hnone]
    rfl

/-- What is looked up for a diagnostic of a rule is the severity of that rule. -/
theorem WellTyped.gradedDiagnostic_severity (hc : c.WellTyped) {d : Diagnostic}
    (hid : d.ruleId = rule.id) (hseverity : d.severity = rule.info.defaultSeverity) :
    (c.gradedDiagnostic d).severity = c.severityFor rule := by
  obtain ⟨es, hes⟩ := Value.eq_map_of_isMapping hc.ruleSeverities
  have hlookup : c.severity? rule.id =
      .ok ((Entries.get? (.str rule.id) es).bind severityOf?) := by
    rw [severity?, hes]
    cases es with
    | nil => rfl
    | cons e es => rfl
  rw [severityFor_eq, gradedDiagnostic, severityOr, hid, hlookup, hseverity, hes]
  rfl

theorem WellTyped.severity_of_mem_diagnosticsOf (hc : c.WellTyped) (hrule : rule ∈ builtInRules)
    {text : Text} {answer : ParserAnswer} :
    ∀ d ∈ (c.findings kind text answer).diagnosticsOf rule.id, d.severity = c.severityFor rule := by
  intro d hd
  rw [diagnosticsOf_findings hrule] at hd
  obtain ⟨root, -, hd⟩ := List.mem_flatMap.1 hd
  obtain ⟨d₀, hd₀, rfl⟩ := List.mem_map.1 hd
  obtain ⟨o, ho, hod⟩ := List.mem_filterMap.1 hd₀
  have hown := owns_of_mem_kept hrule o ho
  cases o <;> cases hod
  exact hc.gradedDiagnostic_severity hown.1 hown.2

/-- **What findings depend on:** the patterns, the two flags, what is kept of the visits that the
options make, and the severities of the rules. -/
theorem findings_congr (hc : c.WellTyped) (hc' : c'.WellTyped)
    (henabled : c.enabledRules = c'.enabledRules)
    (hreject : c.rejectSyntaxErrors = c'.rejectSyntaxErrors)
    (hhighlight : c.highlightDiagnostics = c'.highlightDiagnostics)
    (hvisit : ∀ rule ∈ builtInRules, ∀ s n,
      (c.visitOf s rule).kept n = (c'.visitOf s rule).kept n)
    (hseverity : ∀ rule ∈ builtInRules, c.severityFor rule = c'.severityFor rule)
    (kind : FileKind) (text : Text) (answer : ParserAnswer) :
    c.findings kind text answer = c'.findings kind text answer := by
  have hroot : c.rootOf answer = c'.rootOf answer := by
    rw [rootOf, rootOf, hreject]
  have hcollect : ∀ outputs, c.collect outputs = c'.collect outputs := by
    intro outputs
    rw [collect, collect, hhighlight]
  have hcontribution : ∀ s, ∀ rule ∈ builtInRules,
      c.contribution kind s rule = c'.contribution kind s rule := by
    intro s rule hrule
    have hselects : c.selects kind rule = c'.selects kind rule := by
      rw [selects, selects, henabled]
    rw [contribution, contribution, ← kept_congr hselects (hvisit rule hrule s _)]
    apply List.map_congr_left
    intro o ho
    have hown := owns_of_mem_kept hrule o ho
    cases o with
    | diagnostic d =>
      have hgrade : (c.gradedDiagnostic d).severity = (c'.gradedDiagnostic d).severity := by
        rw [hc.gradedDiagnostic_severity hown.1 hown.2, hseverity rule hrule,
          hc'.gradedDiagnostic_severity hown.1 hown.2]
      show Output.diagnostic { d with severity := (c.gradedDiagnostic d).severity } = _
      rw [hgrade]
      rfl
    | highlight h => rfl
    | edit e => rfl
  unfold findings
  rw [hroot]
  cases c'.rootOf answer with
  | none => rfl
  | some root =>
    simp only [hcollect, List.flatMap_def]
    rw [List.map_congr_left (hcontribution _)]

/-- A configuration with the diagnostics marked as highlights, or not. -/
def withHighlights (c : Config) (on : Bool) : Config := { c with highlightDiagnostics := .bool on }

theorem WellTyped.withHighlights (hc : c.WellTyped) (on : Bool) :
    (c.withHighlights on).WellTyped :=
  ⟨hc.enabledRules, hc.rejectSyntaxErrors, rfl, hc.ruleSeverities, hc.ruleConfigs⟩

/-- **Marking diagnostics only adds highlights**, one for each and behind all others. -/
theorem findings_highlighted (c : Config) (kind : FileKind) (text : Text)
    (answer : ParserAnswer) :
    (c.withHighlights true).findings kind text answer =
      let a := (c.withHighlights false).findings kind text answer
      { a with highlights := a.highlights ++ a.diagnostics.map Diagnostic.highlight } := by
  have hroot : (c.withHighlights true).rootOf answer = (c.withHighlights false).rootOf answer := rfl
  unfold findings
  rw [hroot]
  cases (c.withHighlights false).rootOf answer with
  | none => rfl
  | some root => rfl

end Config

/-! ### Two runs -/

namespace Engine

variable {c c' : Config} {name : Option String} {kind : FileKind}

/-- The engine of the built-in rules for a configuration, when some parsers are ready. -/
def builtInFor (c : Config) (ready : List FileKind) : Engine :=
  let e := forConfig c Registry.builtIn
  { e with frontend := { e.frontend with ready } }

/-- **An analysis by the built-in rules comes to their findings**, whatever parsers are ready. -/
theorem result_analyze_builtInFor (hc : c.WellTyped) (ready : List FileKind) (text : Text)
    (hk : FileKind.ofName name = .ok kind) (answer : ParserAnswer) :
    ((builtInFor c ready).analyze c text name answer).1.result =
      .ok (c.findings kind text answer) := by
  have hrules : (builtInFor c ready).registry.rules = builtInRules := Registry.rules_builtIn
  have haccept : (builtInFor c ready).frontend.accept answer =
      ({ rejectsErrors := c.rejectSyntaxErrors.truthy } : Frontend).accept answer :=
    Frontend.accept_congr rfl answer
  have hroot : ∀ root, ((builtInFor c ready).frontend.parse kind answer).1 = .ok root ↔
      c.rootOf answer = some root := by
    intro root
    rw [Frontend.parse_eq_ok_iff, haccept, Config.rootOf]
    cases ({ rejectsErrors := c.rejectSyntaxErrors.truthy } : Frontend).accept answer <;>
      simp [Except.toOption]
  rw [result_analyze hc _ text hk, Config.findings]
  cases hp : ((builtInFor c ready).frontend.parse kind answer).1 with
  | error err =>
    have hnone : c.rootOf answer = none := by
      cases hsome : c.rootOf answer with
      | none => rfl
      | some root =>
        rw [← hroot, hp] at hsome
        cases hsome
    simp only [hnone]
  | ok root =>
    simp only [(hroot root).1 hp, hrules, any_strays_builtIn]
    rfl

/-- **The settings of one rule do not reach another.** Two configurations agree on whether trees
with syntax errors count. Then for every built-in rule that both enable with the same options

* the diagnostics under its id are the same, severities aside, and so are the edits;
* each such diagnostic has the severity set for the rule, if that is one, or the rule's own;

whatever is set for other rules. Marking the diagnostics as highlights leaves diagnostics and edits
as they are and adds one highlight for each diagnostic behind the others. -/
theorem analyze_independent (hc : c.WellTyped) (hc' : c'.WellTyped)
    (hreject : c.rejectSyntaxErrors = c'.rejectSyntaxErrors) (ready ready' : List FileKind)
    (text : Text) (hk : FileKind.ofName name = .ok kind) (answer : ParserAnswer) :
    ∃ a a' : Analysis,
      ((builtInFor c ready).analyze c text name answer).1.result = .ok a ∧
      ((builtInFor c' ready').analyze c' text name answer).1.result = .ok a' ∧
      (∀ rule ∈ builtInRules, c.enables rule = true → c'.enables rule = true →
        (∀ option : String, Entries.get? (.str option) (c.optionsFor rule.id) =
          Entries.get? (.str option) (c'.optionsFor rule.id)) →
        (a.diagnosticsOf rule.id).map Diagnostic.ungraded =
          (a'.diagnosticsOf rule.id).map Diagnostic.ungraded ∧
        a.editsOf rule.id = a'.editsOf rule.id ∧
        (∀ d ∈ a.diagnosticsOf rule.id, d.severity = c.severityFor rule) ∧
        (∀ d ∈ a'.diagnosticsOf rule.id, d.severity = c'.severityFor rule)) ∧
      ∃ plain : Analysis,
        ((builtInFor c ready).analyze (c.withHighlights false) text name answer).1.result =
          .ok plain ∧
        ((builtInFor c ready).analyze (c.withHighlights true) text name answer).1.result =
          .ok { plain with
                highlights := plain.highlights ++ plain.diagnostics.map Diagnostic.highlight } := by
  refine ⟨_, _, result_analyze_builtInFor hc ready text hk answer,
    result_analyze_builtInFor hc' ready' text hk answer, ?_, _,
    result_analyze_builtInFor (hc.withHighlights false) ready text hk answer, ?_⟩
  · intro rule hrule hon hon' hoptions
    have hselects : c.selects kind rule = c'.selects kind rule := by
      unfold Config.enables at hon hon'
      rw [Config.selects, Config.selects, hon, hon']
    have hkept : ∀ s, c.kept kind s rule = c'.kept kind s rule := fun s =>
      Config.kept_congr hselects (congrArg (Run.kept _)
        (reads_builtIn rule hrule s _ _ (Config.agree_of_lookup hrule hoptions)))
    have hroot : c.rootOf answer = c'.rootOf answer := by
      rw [Config.rootOf, Config.rootOf, hreject]
    refine ⟨?_, ?_, hc.severity_of_mem_diagnosticsOf hrule,
      hc'.severity_of_mem_diagnosticsOf hrule⟩
    · rw [Config.diagnosticsOf_findings hrule, Config.diagnosticsOf_findings hrule, hroot]
      simp only [hkept, List.map_flatMap, List.map_map]
      rfl
    · rw [Config.editsOf_findings hrule, Config.editsOf_findings hrule, hroot]
      simp only [hkept]
  · rw [← Config.findings_highlighted]
    exact result_analyze_builtInFor (hc.withHighlights true) ready text hk answer

/-- A configuration for switches alone. It takes a missing default for an error and has a setting
for a rule that it does not run. -/
def strictSwitches : Config where
  enabledRules := .list [.str "switch.*"]
  ruleSeverities := .object [("switch.missing_default", .str "error")]
  ruleConfigs := .object [("naming.handler_prefix", .object [("prefix", .str "on")])]

/-- Next to a new configuration, only the severity of the finding is another one. -/
theorem switchText_graded :
    ∃ a a' : Analysis,
      ((builtInFor {} []).analyze {} switchText (some "ts") (.tree (.rooted switchRoot))).1.result =
        .ok a ∧
      ((builtInFor strictSwitches []).analyze strictSwitches switchText (some "ts")
        (.tree (.rooted switchRoot))).1.result = .ok a' ∧
      a.diagnosticsOf "switch.missing_default" =
        [⟨⟨0, 6, by decide⟩, SwitchDefault.message, "switch.missing_default", "warning"⟩] ∧
      a'.diagnosticsOf "switch.missing_default" =
        [⟨⟨0, 6, by decide⟩, SwitchDefault.message, "switch.missing_default", "error"⟩] := by
  have hc : Config.WellTyped {} := ⟨rfl, rfl, rfl, rfl, rfl⟩
  have hc' : strictSwitches.WellTyped := ⟨rfl, rfl, rfl, rfl, rfl⟩
  have hk : FileKind.ofName (some "ts") = .ok .ts := rfl
  have hrule : SwitchDefault.rule ∈ builtInRules := by simp [builtInRules]
  have hon : Config.enables {} SwitchDefault.rule = true := by decide +kernel
  have hon' : strictSwitches.enables SwitchDefault.rule = true := by decide +kernel
  obtain ⟨a, a', ha, ha', hrules, -⟩ := analyze_independent hc hc' rfl [] [] switchText hk
    (.tree (.rooted switchRoot))
  obtain ⟨hsame, -, -, hseverity⟩ := hrules SwitchDefault.rule hrule hon hon' fun _ => rfl
  have hfound : a.diagnosticsOf "switch.missing_default" =
      [⟨⟨0, 6, by decide⟩, SwitchDefault.message, "switch.missing_default", "warning"⟩] := by
    rw [result_analyze_builtInFor hc [] switchText hk] at ha
    cases ha
    have hroot : Config.rootOf {} (.tree (.rooted switchRoot)) = some switchRoot := rfl
    show Analysis.diagnosticsOf _ SwitchDefault.rule.id = _
    rw [Config.diagnosticsOf_findings hrule, hroot, Option.toList_some, List.flatMap_singleton,
      kept_switchDefault]
    rfl
  refine ⟨a, a', ha, ha', hfound, ?_⟩
  have hsame : [_] = (a'.diagnosticsOf "switch.missing_default").map Diagnostic.ungraded :=
    hfound ▸ hsame
  obtain ⟨d, hd, hungraded⟩ := List.map_eq_singleton_iff.1 hsame.symm
  have hgrade : d.severity = "error" := by
    have hmem : d ∈ a'.diagnosticsOf "switch.missing_default" := by simp [hd]
    exact hseverity d hmem
  rw [hd]
  cases d
  cases hungraded
  cases hgrade
  rfl

end Engine

end TreeLint
