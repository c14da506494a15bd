import TreeLint.Engine
import TreeLint.Proofs.EnabledRules
import TreeLint.Proofs.Value.Entries

/-!
# What each rule contributes

The engine runs rules one after the other, with warnings, early ends and a configuration of any
shape on the way. Under a configuration whose settings have the shapes they should have
(`Config.WellTyped`) all of this comes down to lists:

* a rule is selected by its kinds and its id alone (`Config.selects`, `rulesFor_eq`);
* what is kept of a visit (`Run.kept`) are its outputs that lie in the text, in the order of the
  yields, and nothing if the visit failed;
* a rule contributes what is kept of its visit, if it is selected, with the severities of the
  configuration (`Config.contribution`);
* an analysis collects the contributions of the rules, unless the finished visit of a selected
  one yielded a value that is no output (`result_analyze`).

Warnings are left out here: `Attempt.result` is what a computation comes to without them.
-/

namespace TreeLint

/-! ### Results without warnings -/

namespace Attempt

/-- What an attempt comes to, its warnings left out. -/
def result {ε α : Type} (x : Attempt ε α) : Except ε α := x.run.value

variable {ε α β : Type}

@[simp] theorem result_pure (a : α) : (pure a : Attempt ε α).result = .ok a := rfl

@[simp] theorem result_throw (e : ε) : (throw e : Attempt ε α).result = .error e := rfl

@[simp] theorem result_warn (w : Warning) : (warn w : Attempt ε Unit).result = .ok () := rfl

@[simp] theorem result_ofExcept (x : Except ε α) : (ofExcept x).result = x := rfl

theorem result_bind (x : Attempt ε α) (f : α → Attempt ε β) :
    (x >>= f).result = x.result >>= fun a => (f a).result := by
  show (ExceptT.bind x f).run.value = _
  rw [ExceptT.bind, ExceptT.run_mk, Logged.value_bind]
  cases h : x.result with
  | error e =>
    have hx : Logged.value x = .error e := h
    rw [hx]
    rfl
  | ok a =>
    have hx : Logged.value x = .ok a := h
    rw [hx]
    rfl

theorem result_bind_ok {x : Attempt ε α} {a : α} (h : x.result = .ok a) (f : α → Attempt ε β) :
    (x >>= f).result = (f a).result := by
  rw [result_bind, h]
  rfl

theorem result_bind_error {x : Attempt ε α} {e : ε} (h : x.result = .error e)
    (f : α → Attempt ε β) : (x >>= f).result = .error e := by
  rw [result_bind, h]
  rfl

theorem result_bind_eq_ok {x : Attempt ε α} {f : α → Attempt ε β} {b : β} :
    (x >>= f).result = .ok b ↔ ∃ a, x.result = .ok a ∧ (f a).result = .ok b := by
  cases h : x.result with
  | error e => simp [result_bind_error h]
  | ok a => simp [result_bind_ok h]

end Attempt

/-! ### Outputs by class -/

namespace Output

/-- The diagnostic that an output is. -/
def diagnostic? : Output → Option Diagnostic
  | .diagnostic d => some d
  | _ => none

/-- The highlight that an output is. -/
def highlight? : Output → Option Highlight
  | .highlight h => some h
  | _ => none

/-- The edit that an output is. -/
def edit? : Output → Option Edit
  | .edit e => some e
  | _ => none

end Output

/-- The highlight over the range of a diagnostic. -/
def Diagnostic.highlight (d : Diagnostic) : Highlight := ⟨d.range, d.ruleId⟩

namespace Analysis

/-- Outputs are added behind those of their class, in their order. -/
theorem extend_eq (a : Analysis) (outputs : List Output) :
    a.extend outputs =
      ⟨a.diagnostics ++ outputs.filterMap Output.diagnostic?,
        a.highlights ++ outputs.filterMap Output.highlight?,
        a.edits ++ outputs.filterMap Output.edit?⟩ := by
  induction outputs generalizing a with
  | nil => simp
  | cons o rest ih =>
    have hstep : a.extend (o :: rest) = (a.add o).extend rest := rfl
    rw [hstep, ih]
    cases o <;>
      simp [add, List.filterMap_cons, Output.diagnostic?, Output.highlight?, Output.edit?]

end Analysis

/-! ### What is kept of a visit -/

namespace Yield

/-- The output that a yield is. -/
def output? : Yield → Option Output
  | .output o => some o
  | .stray _ => none

/-- Whether a yield is no output. -/
def isStray : Yield → Bool
  | .output _ => false
  | .stray _ => true

end Yield

namespace Run

/-- The outputs of a visit that lie in a text of length `n`, in the order of the yields. Nothing
is kept of a visit that failed. -/
def kept (n : Nat) (r : Run Yield) : List Output :=
  if r.failure.isSome then [] else (r.results.filterMap Yield.output?).filter (·.fits n)

/-- Whether a visit came to its end and yielded a value that is no output. -/
def strays (r : Run Yield) : Bool := r.failure.isNone && r.results.any Yield.isStray

theorem kept_of_failure {r : Run Yield} (h : r.failure.isSome = true) (n : Nat) :
    r.kept n = [] := by
  rw [kept, if_pos h]

theorem strays_of_failure {r : Run Yield} (h : r.failure.isSome = true) : r.strays = false := by
  cases hf : r.failure with
  | none =>
    rw [hf] at h
    cases h
  | some e => simp [strays, hf]

end Run

namespace Engine

open Attempt

theorem result_keepFitting (ruleId : String) (n : Nat) (ys : List Yield) :
    (keepFitting ruleId n ys).result =
      if ys.any Yield.isStray then .error .stray
      else .ok ((ys.filterMap Yield.output?).filter (·.fits n)) := by
  induction ys with
  | nil => rfl
  | cons y ys ih =>
    cases y with
    | stray v => rfl
    | output o =>
      have hany : ((Yield.output o :: ys).any Yield.isStray) = ys.any Yield.isStray := rfl
      rw [hany, List.filterMap_cons_some (show Yield.output? (.output o) = some o from rfl),
        List.filter_cons, keepFitting]
      by_cases hfit : o.fits n = true
      · rw [if_pos hfit, if_pos hfit]
        by_cases hs : ys.any Yield.isStray = true
        · rw [if_pos hs] at ih ⊢
          exact result_bind_error ih _
        · rw [if_neg hs] at ih ⊢
          exact result_bind_ok ih _
      · rw [if_neg hfit, if_neg hfit, ← ih]
        exact result_bind_ok (result_warn _) _

theorem result_runRule (rule : Rule) (s : Source) (o : Options) :
    (runRule rule s o).result =
      if (rule.visit s o).strays then .error .stray
      else .ok ((rule.visit s o).kept s.text.length) := by
  unfold runRule
  cases hf : (rule.visit s o).failure with
  | some e =>
    have hsome : (rule.visit s o).failure.isSome = true := by rw [hf]; rfl
    simp only [hf, Run.kept_of_failure hsome, Run.strays_of_failure hsome]
    exact result_bind_ok (result_warn _) _
  | none =>
    simp only [result_keepFitting, Run.strays, Run.kept, hf, Option.isNone_none, Bool.true_and,
      Option.isSome_none, Bool.false_eq_true, if_false]

end Engine

/-! ### Configurations of the right shape -/

namespace Value

/-- Whether a value is true or false. -/
def isFlag : Value → Bool
  | .scalar (.bool _) => true
  | _ => false

/-- Whether a value is a mapping. -/
def isMapping (v : Value) : Bool := v.entries?.isSome

/-- Whether a value is a mapping to mappings. -/
def isMappingOfMappings : Value → Bool
  | .map es => es.all fun e => e.2.isMapping
  | _ => false

theorem eq_map_of_isMapping {v : Value} (h : v.isMapping = true) : ∃ es, v = .map es := by
  cases v with
  | map es => exact ⟨es, rfl⟩
  | scalar s => cases h
  | list xs => cases h
  | pair a b => cases h

end Value

namespace Config

/-- Every setting has the shape it should have: patterns are a list of strings, flags are true or
false, severities are a mapping, and options are a mapping to mappings. -/
structure WellTyped (c : Config) : Prop where
  enabledRules : c.enabledRules.isStringList = true
  rejectSyntaxErrors : c.rejectSyntaxErrors.isFlag = true
  highlightDiagnostics : c.highlightDiagnostics.isFlag = true
  ruleSeverities : c.ruleSeverities.isMapping = true
  ruleConfigs : c.ruleConfigs.isMappingOfMappings = true

/-- Whether a rule runs on a file kind and one of the patterns matches its id. -/
def selects (c : Config) (kind : FileKind) (rule : Rule) : Bool :=
  rule.info.kinds.contains kind.name &&
    c.enabledRules.stringCodes.any (Glob.matchesCodes · (codesOf rule.id))

/-- The options of a rule, none if they cannot be used. -/
def optionsFor (c : Config) (ruleId : String) : Options :=
  (c.options ruleId).toOption.getD []

/-- A diagnostic with the severity that is set for its rule, if there is one. -/
def gradedDiagnostic (c : Config) (d : Diagnostic) : Diagnostic :=
  { d with severity := (c.severityOr d.ruleId d.severity).toOption.getD d.severity }

/-- An output with the severity that is set for its rule. -/
def graded (c : Config) : Output → Output
  | .diagnostic d => .diagnostic (c.gradedDiagnostic d)
  | o => o

/-- The visit of a rule with its options. -/
def visitOf (c : Config) (s : Source) (rule : Rule) : Run Yield :=
  rule.visit s (c.optionsFor rule.id)

/-- What is kept of a rule on a source of a kind: nothing if it is not selected. -/
def kept (c : Config) (kind : FileKind) (s : Source) (rule : Rule) : List Output :=
  if c.selects kind rule then (c.visitOf s rule).kept s.text.length else []

/-- What a rule contributes to the analysis of a source. -/
def contribution (c : Config) (kind : FileKind) (s : Source) (rule : Rule) : List Output :=
  (c.kept kind s rule).map c.graded

/-- Whether a rule is selected and its visit strays. -/
def strays (c : Config) (kind : FileKind) (s : Source) (rule : Rule) : Bool :=
  c.selects kind rule && (c.visitOf s rule).strays

/-- The analysis that holds some outputs, with every diagnostic marked if the configuration says
so. -/
def collect (c : Config) (outputs : List Output) : Analysis :=
  let a := Analysis.extend {} outputs
  if c.highlightDiagnostics.truthy then a.highlighted else a

variable {c : Config}

/-! The three classes of what is contributed and collected. -/

@[simp] theorem diagnostics_contribution (kind : FileKind) (s : Source) (rule : Rule) :
    (c.contribution kind s rule).filterMap Output.diagnostic? =
      ((c.kept kind s rule).filterMap Output.diagnostic?).map c.gradedDiagnostic := by
  rw [contribution, List.filterMap_map, List.map_filterMap]
  congr 1
  funext o
  cases o <;> rfl

@[simp] theorem highlights_contribution (kind : FileKind) (s : Source) (rule : Rule) :
    (c.contribution kind s rule).filterMap Output.highlight? =
      (c.kept kind s rule).filterMap Output.highlight? := by
  rw [contribution, List.filterMap_map]
  congr 1
  funext o
  cases o <;> rfl

@[simp] theorem edits_contribution (kind : FileKind) (s : Source) (rule : Rule) :
    (c.contribution kind s rule).filterMap Output.edit? =
      (c.kept kind s rule).filterMap Output.edit? := by
  rw [contribution, List.filterMap_map]
  congr 1
  funext o
  cases o <;> rfl

@[simp] theorem diagnostics_collect (outputs : List Output) :
    (c.collect outputs).diagnostics = outputs.filterMap Output.diagnostic? := by
  rw [collect, Analysis.extend_eq]
  split <;> rfl

@[simp] theorem edits_collect (outputs : List Output) :
    (c.collect outputs).edits = outputs.filterMap Output.edit? := by
  rw [collect, Analysis.extend_eq]
  split <;> rfl

@[simp] theorem highlights_collect (outputs : List Output) :
    (c.collect outputs).highlights = outputs.filterMap Output.highlight? ++
      if c.highlightDiagnostics.truthy then
        (outputs.filterMap Output.diagnostic?).map Diagnostic.highlight
      else [] := by
  rw [collect, Analysis.extend_eq]
  split
  · rfl
  · simp

/-- The default configuration selects every rule of a kind. -/
theorem selects_default {kind : FileKind} {rule : Rule}
    (h : rule.info.kinds.contains kind.name = true) : Config.selects {} kind rule = true := by
  have hcodes : ({} : Config).enabledRules.stringCodes = [codesOf "*"] := rfl
  have hstar : Glob.matchesCodes (codesOf "*") (codesOf rule.id) = true :=
    Glob.matchesText_star rule.id
  rw [selects, h, hcodes, List.any_cons, hstar]
  rfl

/-! What the right shape is good for. -/

theorem WellTyped.options_eq (hc : c.WellTyped) (ruleId : String) :
    c.options ruleId = .ok (c.optionsFor ruleId) := by
  have hok : ∃ o, c.options ruleId = .ok o := by
    unfold options
    have hmap := hc.ruleConfigs
    split
    · rename_i es hes
      rw [hes, Value.isMappingOfMappings, List.all_eq_true] at hmap
      split
      · exact ⟨[], rfl⟩
      · rename_i v hv
        obtain ⟨k, hmem, -⟩ := Entries.exists_key_of_get? hv
        obtain ⟨os, hos⟩ := Value.eq_map_of_isMapping (hmap (k, v) hmem)
        rw [show v = .map os from hos]
        exact ⟨os, rfl⟩
    · rename_i hno
      exfalso
      cases hv : c.ruleConfigs with
      | map es => exact hno es hv
      | _ => rw [hv] at hmap; cases hmap
  obtain ⟨o, ho⟩ := hok
  rw [optionsFor, ho]
  rfl

theorem WellTyped.regrade_eq (hc : c.WellTyped) (o : Output) : c.regrade o = .ok (c.graded o) := by
  cases o with
  | highlight h => rfl
  | edit e => rfl
  | diagnostic d =>
    have hok : ∃ v, c.severityOr d.ruleId d.severity = .ok v := by
      obtain ⟨es, hes⟩ := Value.eq_map_of_isMapping hc.ruleSeverities
      rw [severityOr, severity?, hes]
      split
      · exact ⟨_, rfl⟩
      · exact ⟨_, rfl⟩
    obtain ⟨v, hv⟩ := hok
    rw [regrade, graded, gradedDiagnostic, hv]
    rfl

theorem WellTyped.mapM_regrade (hc : c.WellTyped) (os : List Output) :
    os.mapM c.regrade = .ok (os.map c.graded) := by
  have hfun : c.regrade = fun o => (pure (c.graded o) : Except ConfigError Output) :=
    funext hc.regrade_eq
  rw [hfun, List.mapM_pure]
  rfl

end Config

/-! ### The analysis of the selected rules -/

namespace Engine

open Attempt

variable {c : Config}

/-- What selected rules put out, one after the other, unless one of them strays. -/
theorem result_outputs (hc : c.WellTyped) (kind : FileKind) (s : Source) (rules : List Rule) :
    (outputs c s (rules.filter (c.selects kind))).result =
      if rules.any (c.strays kind s) then .error .stray
      else .ok (rules.flatMap (c.contribution kind s)) := by
  induction rules with
  | nil => rfl
  | cons rule rest ih =>
    rw [List.filter_cons, List.any_cons, List.flatMap_cons]
    by_cases hsel : c.selects kind rule = true
    · have hopt : (fromConfig (c.options rule.id)).result = .ok (c.optionsFor rule.id) := by
        rw [fromConfig, result_ofExcept, hc.options_eq]
        rfl
      have hstrays : c.strays kind s rule = (c.visitOf s rule).strays := by
        rw [Config.strays, hsel, Bool.true_and]
      have hrun : (runRule rule s (c.optionsFor rule.id)).result =
          if c.strays kind s rule then .error .stray else .ok (c.kept kind s rule) := by
        rw [result_runRule, hstrays, Config.kept, if_pos hsel]
        rfl
      rw [if_pos hsel, outputs, result_bind_ok hopt]
      by_cases hstray : c.strays kind s rule = true
      · rw [hstray, Bool.true_or, if_pos rfl]
        rw [if_pos hstray] at hrun
        exact result_bind_error hrun _
      · rw [Bool.not_eq_true] at hstray
        rw [hstray, if_neg Bool.false_ne_true] at hrun
        rw [hstray, Bool.false_or, result_bind_ok hrun]
        have hgrade : (fromConfig ((c.kept kind s rule).mapM c.regrade)).result =
            .ok (c.contribution kind s rule) := by
          rw [fromConfig, result_ofExcept, hc.mapM_regrade]
          rfl
        rw [result_bind_ok hgrade]
        by_cases hs : rest.any (c.strays kind s) = true
        · rw [if_pos hs] at ih ⊢
          exact result_bind_error ih _
        · rw [if_neg hs] at ih ⊢
          exact result_bind_ok ih _
    · have hnone : c.contribution kind s rule = [] := by
        simp [Config.contribution, Config.kept, hsel]
      have hstray : c.strays kind s rule = false := by
        simp [Config.strays, hsel]
      rw [if_neg hsel, ih, hnone, hstray, Bool.false_or, List.nil_append]

/-- Selection is a filter on the rules of the registry. -/
theorem rulesFor_eq (hc : c.WellTyped) (e : Engine) (kind : FileKind) :
    e.rulesFor c kind = .ok (e.registry.rules.filter (c.selects kind)) := by
  have hselects : (e.registry.forKind kind.name).filter (fun rule =>
      c.enabledRules.stringCodes.any (Glob.matchesCodes · (codesOf rule.id))) =
        e.registry.rules.filter (c.selects kind) := by
    rw [Registry.forKind, List.filter_filter]
    apply List.filter_congr
    intro rule _
    rw [Config.selects, Bool.and_comm]
  rw [rulesFor, Registry.enabledBy?_of_isStringList _ hc.enabledRules]
  simp only
  rw [hselects]

/-- **What an analysis comes to.** Without a tree it is empty; otherwise it collects what the
rules contribute, unless one of them strays. -/
theorem result_analyze (hc : c.WellTyped) (e : Engine) (text : Text) {name : Option String}
    {kind : FileKind} (hk : FileKind.ofName name = .ok kind) (answer : ParserAnswer) :
    (e.analyze c text name answer).1.result =
      match (e.frontend.parse kind answer).1 with
      | .error _ => .ok {}
      | .ok root =>
        if e.registry.rules.any (c.strays kind (sourceOf kind text root)) then .error .stray
        else .ok (c.collect (e.registry.rules.flatMap
          (c.contribution kind (sourceOf kind text root)))) := by
  unfold analyze
  simp only [hk, rulesFor_eq hc]
  cases hp : (e.frontend.parse kind answer).1 with
  | error err => exact result_bind_ok (result_warn _) _
  | ok root =>
    simp only
    have hout := result_outputs hc kind (sourceOf kind text root) e.registry.rules
    unfold analyzeSource
    by_cases hs : e.registry.rules.any (c.strays kind (sourceOf kind text root)) = true
    · rw [if_pos hs] at hout ⊢
      exact result_bind_error hout _
    · rw [if_neg hs] at hout ⊢
      exact result_bind_ok hout _

end Engine

end TreeLint
