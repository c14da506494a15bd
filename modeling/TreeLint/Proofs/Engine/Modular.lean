import Mathlib.Data.List.Nodup
import TreeLint.Proofs.Engine.Contribution
import TreeLint.Proofs.List.Selection
import TreeLint.Proofs.Registry
import TreeLint.Rule.Scripted
import TreeLint.Rule.SwitchDefault

/-!
# Rules do not meet

Rules are run one after the other on the same source, and none sees what another one does. Main
statements, for rules whose visits may do anything:

* `analyze_modular` — an analysis by many rules is put together from the analyses by each rule
  alone, class by class and in the order of registration; only the highlights that stand for
  diagnostics come at the very end. A rule that fails leaves no trace in it.
* `analyze_returns_iff` — an analysis comes to a result unless a selected rule finishes its visit
  and has yielded a value that is no output. In that one case it ends early and the contributions
  of all rules are lost (`strayRule_ends_analysis`). A rule that fails costs nothing but its own
  contribution, whatever it yielded before.
-/

namespace TreeLint

namespace Engine

/-- What the rules of a list, registered in their order, report together. -/
def analyzedBy (rules : List Rule) (frontend : Frontend) (c : Config) (text : Text)
    (name : Option String) (answer : ParserAnswer) : Except Failure Analysis :=
  ((Engine.mk (Registry.ofRules rules) frontend).analyze c text name answer).1.result

variable {rules : List Rule} {frontend : Frontend} {c : Config} {text : Text}
  {name : Option String} {kind : FileKind} {answer : ParserAnswer} {root : Node}

/-! ### Lists of contributions -/

theorem contribution_of_failure {s : Source} {rule : Rule}
    (h : (c.visitOf s rule).failure.isSome = true) : c.contribution kind s rule = [] := by
  rw [Config.contribution, Config.kept, Run.kept_of_failure h]
  split <;> rfl

theorem strays_of_failure {s : Source} {rule : Rule}
    (h : (c.visitOf s rule).failure.isSome = true) : c.strays kind s rule = false := by
  rw [Config.strays, Run.strays_of_failure h, Bool.and_false]

/-- Without a tree nothing is reported. -/
theorem analyzedBy_of_no_root (rules : List Rule) (text : Text) (hc : c.WellTyped)
    (hk : FileKind.ofName name = .ok kind) {err : ParseError}
    (hp : (frontend.parse kind answer).1 = .error err) :
    analyzedBy rules frontend c text name answer = .ok {} := by
  rw [analyzedBy, result_analyze hc _ text hk answer]
  simp only [hp]

/-- What rules report together, given a tree. -/
theorem analyzedBy_of_root (rules : List Rule) (text : Text) (hc : c.WellTyped)
    (hk : FileKind.ofName name = .ok kind) (hp : (frontend.parse kind answer).1 = .ok root) :
    analyzedBy rules frontend c text name answer =
      if (Registry.ofRules rules).rules.any (c.strays kind (sourceOf kind text root)) then
        .error .stray
      else .ok (c.collect ((Registry.ofRules rules).rules.flatMap
        (c.contribution kind (sourceOf kind text root)))) := by
  rw [analyzedBy, result_analyze hc _ text hk answer]
  simp only [hp]

/-- What rules that yield nothing but outputs report together, given a tree. -/
theorem analyzedBy_of_outputs (text : Text) (hids : (rules.map Rule.id).Nodup)
    (houtputs : ∀ rule ∈ rules, ∀ s o, (rule.visit s o).results.any Yield.isStray = false)
    (hc : c.WellTyped) (hk : FileKind.ofName name = .ok kind)
    (hp : (frontend.parse kind answer).1 = .ok root) :
    analyzedBy rules frontend c text name answer =
      .ok (c.collect (rules.flatMap (c.contribution kind (sourceOf kind text root)))) := by
  rw [analyzedBy_of_root rules text hc hk hp, Registry.rules_ofRules hids, if_neg]
  rw [List.any_eq_true]
  rintro ⟨rule, hrule, hstray⟩
  rw [Config.strays, Run.strays, Config.visitOf, houtputs rule hrule, Bool.and_false,
    Bool.and_false] at hstray
  cases hstray

/-- Not registering a rule whose visit fails changes nothing. -/
theorem analyzedBy_without_failing (hc : c.WellTyped) (hk : FileKind.ofName name = .ok kind)
    (hp : (frontend.parse kind answer).1 = .ok root) {rule : Rule}
    (hrule : rule ∈ (Registry.ofRules rules).rules)
    (hfail : (c.visitOf (sourceOf kind text root) rule).failure.isSome = true) :
    analyzedBy (rules.filter fun x => x.id != rule.id) frontend c text name answer =
      analyzedBy rules frontend c text name answer := by
  -- the rule is the only one of its id
  have hsame : ∀ x ∈ (Registry.ofRules rules).rules, (x.id != rule.id) = false → x = rule := by
    intro x hx hid
    have hids : ((Registry.ofRules rules).rules.map Rule.id).Nodup :=
      (Registry.Arises.ofRules rules).nodup_ids
    exact List.inj_on_of_nodup_map hids hx hrule (by simpa using hid)
  have hany : ((Registry.ofRules rules).rules.filter fun x => x.id != rule.id).any
        (c.strays kind (sourceOf kind text root)) =
      (Registry.ofRules rules).rules.any (c.strays kind (sourceOf kind text root)) := by
    rw [List.any_filter, Bool.eq_iff_iff, List.any_eq_true, List.any_eq_true]
    constructor
    · rintro ⟨x, hx, hstray⟩
      rw [Bool.and_eq_true] at hstray
      exact ⟨x, hx, hstray.2⟩
    · rintro ⟨x, hx, hstray⟩
      refine ⟨x, hx, ?_⟩
      rw [Bool.and_eq_true]
      refine ⟨?_, hstray⟩
      by_contra hid
      rw [hsame x hx (by simpa using hid), strays_of_failure hfail] at hstray
      cases hstray
  have hflat : ((Registry.ofRules rules).rules.filter fun x => x.id != rule.id).flatMap
        (c.contribution kind (sourceOf kind text root)) =
      (Registry.ofRules rules).rules.flatMap (c.contribution kind (sourceOf kind text root)) := by
    apply flatMap_filter_of_nil
    intro x hx hid
    rw [hsame x hx hid, contribution_of_failure hfail]
  rw [analyzedBy_of_root _ text hc hk hp, analyzedBy_of_root rules text hc hk hp,
    Registry.rules_ofRules_without, hany, hflat]

/-! ### An analysis is put together rule by rule -/

/-- **Modular analysis.** Rules with distinct ids yield nothing but outputs, in the text or not,
and may fail at the end of their visits. Then

* the diagnostics and the edits of all rules together are those of each rule alone, one rule
  after the other;
* the highlights are those that the rules yield themselves, one rule after the other, and behind
  them, if the configuration says so, one for each diagnostic with its range and its rule;
* of what a rule yields its analysis has, class by class and in the order of the yields, all that
  lies in the text;
* a rule whose visit fails has an empty analysis, and without it the rest is reported the same.
-/
theorem analyze_modular (rules : List Rule) (text : Text) (hids : (rules.map Rule.id).Nodup)
    (houtputs : ∀ rule ∈ rules, ∀ s o, (rule.visit s o).results.any Yield.isStray = false)
    (hc : c.WellTyped) (hk : FileKind.ofName name = .ok kind)
    (hp : (frontend.parse kind answer).1 = .ok root) :
    ∃ (whole : Analysis) (alone : Rule → Analysis),
      analyzedBy rules frontend c text name answer = .ok whole ∧
      (∀ rule ∈ rules, analyzedBy [rule] frontend c text name answer = .ok (alone rule)) ∧
      whole.diagnostics = rules.flatMap (fun rule => (alone rule).diagnostics) ∧
      whole.edits = rules.flatMap (fun rule => (alone rule).edits) ∧
      whole.highlights =
        rules.flatMap (fun rule =>
          (c.kept kind (sourceOf kind text root) rule).filterMap Output.highlight?) ++
        (if c.highlightDiagnostics.truthy then whole.diagnostics.map Diagnostic.highlight
          else []) ∧
      (∀ rule ∈ rules,
        let kept := c.kept kind (sourceOf kind text root) rule
        (alone rule).diagnostics =
          (kept.filterMap Output.diagnostic?).map c.gradedDiagnostic ∧
        (alone rule).edits = kept.filterMap Output.edit? ∧
        (alone rule).highlights = kept.filterMap Output.highlight? ++
          (if c.highlightDiagnostics.truthy then
            (alone rule).diagnostics.map Diagnostic.highlight else [])) ∧
      (∀ rule ∈ rules, (c.visitOf (sourceOf kind text root) rule).failure.isSome = true →
        alone rule = {} ∧
        analyzedBy (rules.filter fun x => x.id != rule.id) frontend c text name answer =
          .ok whole) := by
  have hwhole := analyzedBy_of_outputs text hids houtputs hc hk hp
  refine ⟨_, fun rule => c.collect (c.contribution kind (sourceOf kind text root) rule), hwhole,
    ?_, ?_, ?_, ?_, ?_, ?_⟩
  · intro rule hrule
    have hself : ∀ x ∈ [rule], ∀ s o, (x.visit s o).results.any Yield.isStray = false := by
      intro x hx
      rw [List.mem_singleton] at hx
      subst hx
      exact houtputs x hrule
    rw [analyzedBy_of_outputs text (by simp) hself hc hk hp, List.flatMap_singleton]
  · simp only [Config.diagnostics_collect, List.filterMap_flatMap]
  · simp only [Config.edits_collect, List.filterMap_flatMap]
  · simp only [Config.highlights_collect, Config.diagnostics_collect, List.filterMap_flatMap,
      Config.highlights_contribution]
  · intro rule _
    refine ⟨?_, ?_, ?_⟩
    · rw [Config.diagnostics_collect, Config.diagnostics_contribution]
    · rw [Config.edits_collect, Config.edits_contribution]
    · rw [Config.highlights_collect, Config.highlights_contribution, Config.diagnostics_collect]
  · intro rule hrule hfail
    have hreg : rule ∈ (Registry.ofRules rules).rules := by
      rw [Registry.rules_ofRules hids]
      exact hrule
    refine ⟨?_, ?_⟩
    · show c.collect (c.contribution kind (sourceOf kind text root) rule) = {}
      rw [contribution_of_failure hfail, Config.collect]
      split <;> rfl
    · rw [analyzedBy_without_failing hc hk hp hreg hfail, hwhole]

/-- A rule that yields a diagnostic and then gives up. -/
def failingRule : Rule :=
  .scripted { id := "test.failing", category := "test" } [.own 0 1 "never reported", .raise]

/-- A rule that yields an edit far behind the end of a short text, then one at its start. -/
def outlyingRule : Rule :=
  .scripted { id := "test.outlying", category := "test" }
    [.edit ⟨0, 100, "x".toList, "test.outlying"⟩, .edit ⟨0, 0, "// ".toList, "test.outlying"⟩]

/-- A switch statement without a default clause. -/
def switchText : Text := "switch(x)\x7b\x7d".toList

/-- The tree of that statement. -/
def switchRoot : Node :=
  .mk { kind := "program", named := true, startByte := 0, endByte := 11 }
    [.mk { kind := "switch_statement", named := true, startByte := 0, endByte := 11 }
      [.mk { kind := "switch", startByte := 0, endByte := 6 } [],
        .mk { kind := "switch_body", named := true, startByte := 9, endByte := 11,
              field := some "body" } []]]

theorem any_isStray_ofOutputs (i : RuleInfo) (visit : Source → Options → Run Output) (s : Source)
    (o : Options) : ((Rule.ofOutputs i visit).visit s o).results.any Yield.isStray = false := by
  simp [Rule.ofOutputs, Run.mapResults, Yield.isStray]

theorem kept_outlyingRule :
    Config.kept {} .ts (sourceOf .ts switchText switchRoot) outlyingRule =
      [.edit ⟨0, 0, "// ".toList, "test.outlying"⟩] := by
  rw [Config.kept, if_pos (Config.selects_default rfl)]
  decide

theorem kept_switchDefault :
    Config.kept {} .ts (sourceOf .ts switchText switchRoot) SwitchDefault.rule =
      [.diagnostic ⟨⟨0, 6, by decide⟩, SwitchDefault.message, "switch.missing_default",
        "warning"⟩] := by
  rw [Config.kept, if_pos (Config.selects_default rfl)]
  show Run.kept _ (Run.mapResults _ (Run.each (SwitchDefault.check _) switchRoot.walk)) = _
  rw [Node.walk_eq_preorder]
  decide

/-- The failing rule is left out of what the other two report. -/
theorem failingRule_leaves_no_trace :
    analyzedBy [outlyingRule, failingRule, SwitchDefault.rule] {} {} switchText (some "ts")
        (.tree (.rooted switchRoot)) =
      .ok { diagnostics := [⟨⟨0, 6, by decide⟩, SwitchDefault.message, "switch.missing_default",
              "warning"⟩],
            edits := [⟨0, 0, "// ".toList, "test.outlying"⟩] } ∧
    analyzedBy [outlyingRule, SwitchDefault.rule] {} {} switchText (some "ts")
        (.tree (.rooted switchRoot)) =
      analyzedBy [outlyingRule, failingRule, SwitchDefault.rule] {} {} switchText (some "ts")
        (.tree (.rooted switchRoot)) := by
  have houtputs : ∀ rule ∈ [outlyingRule, failingRule, SwitchDefault.rule], ∀ s o,
      (rule.visit s o).results.any Yield.isStray = false := by
    intro rule hrule s o
    rw [List.mem_cons, List.mem_cons, List.mem_singleton] at hrule
    rcases hrule with rfl | rfl | rfl
    · rfl
    · rfl
    · exact any_isStray_ofOutputs _ _ s o
  have hc : Config.WellTyped {} := ⟨rfl, rfl, rfl, rfl, rfl⟩
  have hk : FileKind.ofName (some "ts") = .ok .ts := rfl
  have hp : (({} : Frontend).parse .ts (.tree (.rooted switchRoot))).1 = .ok switchRoot := rfl
  have hids : ([outlyingRule, failingRule, SwitchDefault.rule].map Rule.id).Nodup := by decide
  obtain ⟨whole, _, hwhole, -, -, -, -, -, hfailing⟩ :=
    analyze_modular [outlyingRule, failingRule, SwitchDefault.rule] switchText hids
      houtputs hc hk hp
  have hwithout := (hfailing failingRule (by simp) rfl).2
  refine ⟨?_, ?_⟩
  · have hfailing : Config.contribution {} .ts (sourceOf .ts switchText switchRoot) failingRule =
        [] := contribution_of_failure rfl
    rw [analyzedBy_of_outputs switchText hids houtputs hc hk hp, List.flatMap_cons,
      List.flatMap_cons, List.flatMap_singleton, hfailing, Config.contribution,
      Config.contribution, kept_outlyingRule, kept_switchDefault]
    rfl
  · rw [hwhole]
    exact hwithout

/-! ### When an analysis ends early -/

/-- **An analysis comes to a result exactly when no selected rule strays.** Otherwise it ends
early. A rule whose visit fails costs nothing but its own contribution: the analysis is the same as
without it. -/
theorem analyze_returns_iff (rules : List Rule) (frontend : Frontend) (hc : c.WellTyped)
    (text : Text) (hk : FileKind.ofName name = .ok kind) (answer : ParserAnswer) :
    ((∃ a, analyzedBy rules frontend c text name answer = .ok a) ↔
      ∀ root, (frontend.parse kind answer).1 = .ok root →
        ∀ rule ∈ (Registry.ofRules rules).rules, c.selects kind rule = true →
          (c.visitOf (sourceOf kind text root) rule).strays = false) ∧
    ((¬∃ a, analyzedBy rules frontend c text name answer = .ok a) →
      analyzedBy rules frontend c text name answer = .error .stray) ∧
    (∀ root, (frontend.parse kind answer).1 = .ok root →
      ∀ rule ∈ (Registry.ofRules rules).rules,
        (c.visitOf (sourceOf kind text root) rule).failure.isSome = true →
        analyzedBy (rules.filter fun x => x.id != rule.id) frontend c text name answer =
          analyzedBy rules frontend c text name answer) := by
  cases hp : (frontend.parse kind answer).1 with
  | error err =>
    have hempty := analyzedBy_of_no_root rules text hc hk hp
    refine ⟨⟨?_, ?_⟩, ?_, ?_⟩
    · intro _ root hroot
      cases hroot
    · intro _
      exact ⟨{}, hempty⟩
    · intro hno
      exact absurd ⟨{}, hempty⟩ hno
    · intro root hroot
      cases hroot
  | ok root =>
    have hresult := analyzedBy_of_root rules text hc hk hp
    by_cases hs : (Registry.ofRules rules).rules.any
        (c.strays kind (sourceOf kind text root)) = true
    · rw [if_pos hs] at hresult
      refine ⟨⟨?_, ?_⟩, fun _ => hresult, ?_⟩
      · rintro ⟨a, ha⟩
        rw [hresult] at ha
        cases ha
      · intro hall
        obtain ⟨rule, hrule, hstray⟩ := List.any_eq_true.1 hs
        rw [Config.strays, Bool.and_eq_true] at hstray
        rw [hall root rfl rule hrule hstray.1] at hstray
        cases hstray.2
      · intro root' hroot rule hrule hfail
        cases hroot
        exact analyzedBy_without_failing hc hk hp hrule hfail
    · rw [if_neg hs] at hresult
      refine ⟨⟨?_, fun _ => ⟨_, hresult⟩⟩, fun hno => absurd ⟨_, hresult⟩ hno, ?_⟩
      · intro _ root' hroot rule hrule hsel
        cases hroot
        by_contra hstray
        apply hs
        rw [List.any_eq_true]
        refine ⟨rule, hrule, ?_⟩
        rw [Config.strays, hsel, Bool.true_and]
        simpa using hstray
      · intro root' hroot rule hrule hfail
        cases hroot
        exact analyzedBy_without_failing hc hk hp hrule hfail

/-- A rule that yields a diagnostic and then a number. -/
def strayRule : Rule :=
  .scripted { id := "test.stray", category := "test" } [.own 0 1 "lost", .stray (.int 5)]

/-- One value that is no output takes the findings of every other rule with it. -/
theorem strayRule_ends_analysis :
    analyzedBy [strayRule, SwitchDefault.rule] {} {} switchText (some "ts")
        (.tree (.rooted switchRoot)) = .error .stray ∧
    analyzedBy [SwitchDefault.rule] {} {} switchText (some "ts") (.tree (.rooted switchRoot)) =
      .ok { diagnostics := [⟨⟨0, 6, by decide⟩, SwitchDefault.message, "switch.missing_default",
              "warning"⟩] } := by
  have hc : Config.WellTyped {} := ⟨rfl, rfl, rfl, rfl, rfl⟩
  have hk : FileKind.ofName (some "ts") = .ok .ts := rfl
  have hids : ([strayRule, SwitchDefault.rule].map Rule.id).Nodup := by decide
  have hmem : strayRule ∈ (Registry.ofRules [strayRule, SwitchDefault.rule]).rules := by
    rw [Registry.rules_ofRules hids]
    exact List.mem_cons_self
  have hsel : Config.selects {} .ts strayRule = true := Config.selects_default rfl
  obtain ⟨hiff, hends, -⟩ := analyze_returns_iff [strayRule, SwitchDefault.rule] {} hc switchText hk
    (.tree (.rooted switchRoot))
  refine ⟨hends ?_, ?_⟩
  · intro hreturns
    have hclean := hiff.1 hreturns switchRoot rfl strayRule hmem hsel
    exact absurd hclean (by decide)
  · have houtputs : ∀ rule ∈ [SwitchDefault.rule], ∀ s o,
        (rule.visit s o).results.any Yield.isStray = false := by
      intro rule hrule s o
      rw [List.mem_singleton] at hrule
      subst hrule
      exact any_isStray_ofOutputs _ _ s o
    rw [analyzedBy_of_outputs switchText (by decide) houtputs hc hk rfl, List.flatMap_singleton,
      Config.contribution, kept_switchDefault]
    rfl

end Engine

end TreeLint
