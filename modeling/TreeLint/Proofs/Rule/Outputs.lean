import TreeLint.Proofs.Engine.Contribution
import TreeLint.Proofs.Registry
import TreeLint.Rule.BuiltIn

/-!
# What the built-in rules put out

A check of one node is a short computation that may fail. `AllResults P` says that whatever it
puts out has the property `P`; this goes through every step of a computation (`AllResults.bind`),
through a whole run (`Run.mem_results_each`) and up to the rule (`Rule.Yields`).

The built-in rules yield nothing but outputs (`any_strays_builtIn`), all of them under their own
id and with their own severity (`yields_own_builtIn`), and all rules but one propose no edits
(`yields_remarks`). So the edits of an analysis by the built-in rules are those of the rule about
imports (`edits_builtIn`).
-/

namespace TreeLint

/-! ### Properties of all results -/

/-- Whatever a check puts out has a property. -/
def AllResults {β : Type} (P : β → Prop) (x : Except RuleFailure (List β)) : Prop :=
  ∀ ys, x = .ok ys → ∀ y ∈ ys, P y

namespace AllResults

variable {α β : Type} {P : β → Prop}

theorem ok {ys : List β} (h : ∀ y ∈ ys, P y) : AllResults P (.ok ys) := by
  intro zs hzs
  cases hzs
  exact h

theorem error (e : RuleFailure) : AllResults P (.error e : Except RuleFailure (List β)) := by
  intro ys hys
  cases hys

theorem nil : AllResults P (.ok []) := ok (by simp)

theorem singleton {y : β} (h : P y) : AllResults P (.ok [y]) := ok (by simpa using h)

/-- It is enough to look at what comes after a first step. -/
theorem bind {x : Except RuleFailure α} {f : α → Except RuleFailure (List β)}
    (h : ∀ a, AllResults P (f a)) : AllResults P (x >>= f) := by
  intro ys hys
  cases x with
  | error e => cases hys
  | ok a => exact h a ys hys

end AllResults

/-- What a run puts out comes from its items. -/
theorem Run.mem_results_each {α β : Type} {P : β → Prop} {f : α → Except RuleFailure (List β)}
    {xs : List α} (h : ∀ x ∈ xs, AllResults P (f x)) : ∀ y ∈ (Run.each f xs).results, P y := by
  induction xs with
  | nil =>
    intro y hy
    cases hy
  | cons x xs ih =>
    intro y hy
    rw [Run.each] at hy
    split at hy
    · cases hy
    · rename_i ys hys
      rcases List.mem_append.1 hy with hhead | hrest
      · exact h x List.mem_cons_self ys hys y hhead
      · exact ih (fun x hx => h x (List.mem_cons_of_mem _ hx)) y hrest

/-- What a run that came to its end puts out is found item by item. -/
theorem Run.filterMap_results_each {α β γ : Type} {f : α → Except RuleFailure (List β)}
    {p : β → Option γ} {g : α → Option γ}
    (hf : ∀ x ys, f x = .ok ys → ys.filterMap p = (g x).toList) {xs : List α}
    (h : (Run.each f xs).failure = none) :
    (Run.each f xs).results.filterMap p = xs.filterMap g := by
  induction xs with
  | nil => rfl
  | cons x xs ih =>
    rw [Run.each] at h ⊢
    split at h
    · cases h
    · rename_i ys hys
      simp only [List.filterMap_append, hf x ys hys, ih h, List.filterMap_cons]
      cases g x <;> rfl

theorem Source.mem_results_each {α β : Type} {P : β → Prop}
    {f : α → Except RuleFailure (List β)} (h : ∀ x, AllResults P (f x)) (s : Source)
    (list : Node → List α) : ∀ y ∈ (s.each list f).results, P y := by
  intro y hy
  unfold Source.each at hy
  split at hy
  · cases hy
  · cases hy
  · exact Run.mem_results_each (fun x _ => h x) y hy

namespace Run

/-- The diagnostics that a visit yields. -/
def diagnostics (r : Run Yield) : List Diagnostic :=
  r.results.filterMap fun y => y.output?.bind Output.diagnostic?

/-- The edits that a visit yields. -/
def edits (r : Run Yield) : List Edit :=
  r.results.filterMap fun y => y.output?.bind Output.edit?

end Run

theorem filterMap_outputs {β : Type} (f : Output → Option β) (outs : List Output) :
    (outs.map Yield.output).filterMap (fun y => y.output?.bind f) = outs.filterMap f :=
  List.filterMap_map

/-- Picking and sorting out commute, if the picked items are judged like what they come from. -/
theorem filterMap_filter_comm {α β : Type} {p : α → Option β} {q : α → Bool} {r : β → Bool}
    (h : ∀ x y, p x = some y → q x = r y) (xs : List α) :
    (xs.filter q).filterMap p = (xs.filterMap p).filter r := by
  induction xs with
  | nil => rfl
  | cons x xs ih =>
    cases hp : p x with
    | none =>
      rw [List.filterMap_cons_none hp, ← ih, List.filter_cons]
      split
      · rw [List.filterMap_cons_none hp]
      · rfl
    | some y =>
      rw [List.filterMap_cons_some hp, List.filter_cons, List.filter_cons, h x y hp]
      split
      · rw [List.filterMap_cons_some hp, ih]
      · exact ih

/-- A rule yields nothing but outputs, and all of them have a property. -/
def Rule.Yields (rule : Rule) (P : Output → Prop) : Prop :=
  ∀ s o, ∀ y ∈ (rule.visit s o).results, ∃ out, y = .output out ∧ P out

namespace Rule.Yields

variable {rule : Rule} {P : Output → Prop}

theorem ofOutputs {i : RuleInfo} {visit : Source → Options → Run Output}
    (h : ∀ s o, ∀ out ∈ (visit s o).results, P out) : (Rule.ofOutputs i visit).Yields P := by
  intro s o y hy
  obtain ⟨out, hout, rfl⟩ := List.mem_map.1 hy
  exact ⟨out, rfl, h s o out hout⟩

theorem strays_eq_false (h : rule.Yields P) (c : Config) (kind : FileKind) (s : Source) :
    c.strays kind s rule = false := by
  have hany : (c.visitOf s rule).results.any Yield.isStray = false := by
    rw [List.any_eq_false]
    intro y hy
    obtain ⟨out, rfl, _⟩ := h s _ y hy
    exact Bool.false_ne_true
  rw [Config.strays, Run.strays, hany, Bool.and_false, Bool.and_false]

/-- What is kept of a rule has the property of all that it yields. -/
theorem of_mem_kept (h : rule.Yields P) (c : Config) (kind : FileKind) (s : Source) :
    ∀ out ∈ c.kept kind s rule, P out := by
  intro out hout
  unfold Config.kept Run.kept at hout
  split at hout
  · split at hout
    · cases hout
    · obtain ⟨y, hy, hyout⟩ := List.mem_filterMap.1 (List.mem_filter.1 hout).1
      obtain ⟨out', rfl, hP⟩ := h s _ y hy
      cases hyout
      exact hP
  · cases hout

end Rule.Yields

/-! ### Rules that propose no edits -/

/-- An output under the id of a rule, with its severity if it is a diagnostic. -/
def RuleInfo.Owns (i : RuleInfo) : Output → Prop
  | .diagnostic d => d.ruleId = i.id ∧ d.severity = i.defaultSeverity
  | .highlight h => h.ruleId = i.id
  | .edit e => e.ruleId = i.id

/-- An output of a rule that is no edit. -/
def RuleInfo.Remarks (i : RuleInfo) (o : Output) : Prop := i.Owns o ∧ o.edit? = none

theorem RuleInfo.remarks_diagnostic (i : RuleInfo) (range : OffsetRange) (message : String) :
    i.Remarks (i.diagnostic range message) := ⟨⟨rfl, rfl⟩, rfl⟩

theorem NoAny.allResults_check (s : Source) (n : Node) :
    AllResults NoAny.info.Remarks (NoAny.check s n) := by
  unfold NoAny.check
  split
  · refine AllResults.bind fun type => ?_
    split
    · exact AllResults.bind fun range => AllResults.singleton (RuleInfo.remarks_diagnostic _ _ _)
    · exact AllResults.nil
  · split
    · refine AllResults.bind fun type => ?_
      split
      · exact AllResults.bind fun range => AllResults.singleton (RuleInfo.remarks_diagnostic _ _ _)
      · exact AllResults.nil
    · exact AllResults.nil

theorem MissingReturnType.allResults_check (s : Source) (bodyOnly : Bool) (n : Node) :
    AllResults MissingReturnType.info.Remarks (MissingReturnType.check s bodyOnly n) := by
  unfold MissingReturnType.check
  have hfound : ∀ name : Node, AllResults MissingReturnType.info.Remarks
      (do
        if MissingReturnType.returns bodyOnly n then
          return [MissingReturnType.info.diagnostic (← s.span name) MissingReturnType.message]
        return []) := by
    intro name
    split
    · exact AllResults.bind fun range => AllResults.singleton (RuleInfo.remarks_diagnostic _ _ _)
    · exact AllResults.nil
  split
  · exact AllResults.nil
  · split
    · exact AllResults.nil
    · split
      · exact AllResults.nil
      · rename_i name _
        dsimp only
        split
        · refine AllResults.bind fun text => ?_
          split
          · exact AllResults.nil
          · exact hfound name
        · exact hfound name

theorem AnyReturnType.allResults_check (s : Source) (parent : Option Node) (n : Node) :
    AllResults AnyReturnType.info.Remarks (AnyReturnType.check s parent n) := by
  unfold AnyReturnType.check
  have hfound : ∀ name type : Node, AllResults AnyReturnType.info.Remarks
      (do
        if ← s.reads type "any" then
          return [AnyReturnType.info.diagnostic (← s.span name) AnyReturnType.message]
        return []) := by
    intro name type
    refine AllResults.bind fun isAny => ?_
    split
    · exact AllResults.bind fun range => AllResults.singleton (RuleInfo.remarks_diagnostic _ _ _)
    · exact AllResults.nil
  split
  · exact AllResults.nil
  · split
    · rename_i name type _ _
      dsimp only
      split
      · refine AllResults.bind fun text => ?_
        split
        · exact AllResults.nil
        · exact hfound name type
      · exact hfound name type
    · exact AllResults.nil

theorem SwitchDefault.allResults_check (s : Source) (n : Node) :
    AllResults SwitchDefault.info.Remarks (SwitchDefault.check s n) := by
  unfold SwitchDefault.check
  split
  · exact AllResults.nil
  · exact AllResults.bind fun range => AllResults.singleton (RuleInfo.remarks_diagnostic _ _ _)

theorem DuplicateCase.allResults_check (s : Source) (n : Node) :
    AllResults DuplicateCase.info.Remarks (DuplicateCase.check s n) := by
  unfold DuplicateCase.check
  refine AllResults.bind fun ranges => AllResults.ok ?_
  intro out hout
  obtain ⟨p, _, rfl⟩ := List.mem_map.1 hout
  exact RuleInfo.remarks_diagnostic _ _ _

theorem ListKey.allResults_check (s : Source) (inspectExpressions : Bool) (n : Node) :
    AllResults ListKey.info.Remarks (ListKey.check s inspectExpressions n) := by
  unfold ListKey.check
  split
  · exact AllResults.nil
  · refine AllResults.bind fun isMap => ?_
    split
    · exact AllResults.nil
    · split
      · exact AllResults.nil
      · refine AllResults.bind fun keyed => ?_
        split
        · exact AllResults.nil
        · exact AllResults.bind fun range => AllResults.singleton ⟨rfl, rfl⟩

/-! ### The built-in rules together -/

theorem NoAny.yields_remarks : NoAny.rule.Yields NoAny.info.Remarks :=
  .ofOutputs fun s _ => Source.mem_results_each (NoAny.allResults_check s) s _

theorem MissingReturnType.yields_remarks :
    MissingReturnType.rule.Yields MissingReturnType.info.Remarks :=
  .ofOutputs fun s _ => Source.mem_results_each (MissingReturnType.allResults_check s _) s _

theorem AnyReturnType.yields_remarks : AnyReturnType.rule.Yields AnyReturnType.info.Remarks := by
  refine .ofOutputs fun s _ => ?_
  apply Source.mem_results_each
  intro p
  exact AnyReturnType.allResults_check s p.1 p.2

theorem HandlerName.yields_remarks : HandlerName.rule.Yields HandlerName.info.Remarks := by
  refine .ofOutputs fun s o out hout => ?_
  split at hout
  · cases hout
  · split at hout
    · cases hout
    · obtain ⟨f, _, rfl⟩ := List.mem_map.1 hout
      exact RuleInfo.remarks_diagnostic _ _ _

theorem SwitchDefault.yields_remarks : SwitchDefault.rule.Yields SwitchDefault.info.Remarks :=
  .ofOutputs fun s _ => Source.mem_results_each (SwitchDefault.allResults_check s) s _

theorem DuplicateCase.yields_remarks : DuplicateCase.rule.Yields DuplicateCase.info.Remarks :=
  .ofOutputs fun s _ => Source.mem_results_each (DuplicateCase.allResults_check s) s _

theorem ListKey.yields_remarks : ListKey.rule.Yields ListKey.info.Remarks :=
  .ofOutputs fun s _ => Source.mem_results_each (ListKey.allResults_check s _) s _

/-- What is reported for a path stands under the id of the rule, the edit included. -/
theorem FolderImport.owns_of_mem_report (inner : OffsetRange) (path : Text) :
    ∀ out ∈ FolderImport.report inner path, FolderImport.info.Owns out := by
  intro out hout
  rw [FolderImport.report, List.mem_append] at hout
  rcases hout with hfile | hdotted
  · split at hfile
    · rw [List.mem_singleton.1 hfile]
      exact (RuleInfo.remarks_diagnostic _ _ _).1
    · cases hfile
  · split at hdotted
    · rw [List.mem_singleton.1 hdotted]
      exact rfl
    · cases hdotted

theorem FolderImport.allResults_check (s : Source) (skipped : List Value) (n : Node) :
    AllResults FolderImport.info.Owns (FolderImport.check s skipped n) := by
  unfold FolderImport.check
  split
  · exact AllResults.nil
  · refine AllResults.bind fun quoted => ?_
    split
    · intro ys hys
      cases hys
    · refine AllResults.bind fun isSkipped => ?_
      split
      · exact AllResults.nil
      · exact AllResults.ok (FolderImport.owns_of_mem_report _ _)

theorem FolderImport.yields_own : FolderImport.rule.Yields FolderImport.info.Owns := by
  refine .ofOutputs fun s o => ?_
  split
  · intro out hout
    cases hout
  · split
    · intro out hout
      cases hout
    · exact Source.mem_results_each (FolderImport.allResults_check s _) s _

theorem Rule.Yields.mono {rule : Rule} {P Q : Output → Prop} (h : rule.Yields P)
    (hPQ : ∀ out, P out → Q out) : rule.Yields Q := by
  intro s o y hy
  obtain ⟨out, rfl, hP⟩ := h s o y hy
  exact ⟨out, rfl, hPQ out hP⟩

/-- **Every built-in rule speaks for itself.** -/
theorem yields_own_builtIn : ∀ rule ∈ builtInRules, rule.Yields rule.info.Owns := by
  have hown : ∀ {rule : Rule} {i : RuleInfo}, rule.Yields i.Remarks → rule.Yields i.Owns :=
    fun h => h.mono fun _ hout => hout.1
  simp only [builtInRules, List.forall_mem_cons]
  exact ⟨hown NoAny.yields_remarks, hown MissingReturnType.yields_remarks,
    hown AnyReturnType.yields_remarks, FolderImport.yields_own, hown HandlerName.yields_remarks,
    hown SwitchDefault.yields_remarks, hown DuplicateCase.yields_remarks,
    hown ListKey.yields_remarks, by simp⟩

/-- No built-in rule yields a value that is no output. -/
theorem any_strays_builtIn (c : Config) (kind : FileKind) (s : Source) :
    builtInRules.any (c.strays kind s) = false := by
  rw [List.any_eq_false]
  intro rule hrule
  rw [(yields_own_builtIn rule hrule).strays_eq_false]
  exact Bool.false_ne_true

/-- **Only imports are edited.** The edits that the built-in rules propose together are those of
the rule about imports. -/
theorem edits_builtIn (c : Config) (kind : FileKind) (s : Source) :
    (builtInRules.flatMap (c.contribution kind s)).filterMap Output.edit? =
      (c.kept kind s FolderImport.rule).filterMap Output.edit? := by
  have hnone : ∀ {rule : Rule} {i : RuleInfo}, rule.Yields i.Remarks →
      (c.kept kind s rule).filterMap Output.edit? = [] := by
    intro rule i hrule
    rw [List.filterMap_eq_nil_iff]
    intro out hout
    exact (hrule.of_mem_kept c kind s out hout).2
  simp only [builtInRules, List.flatMap_cons, List.flatMap_nil, List.filterMap_append,
    Config.edits_contribution, hnone NoAny.yields_remarks,
    hnone MissingReturnType.yields_remarks, hnone AnyReturnType.yields_remarks,
    hnone HandlerName.yields_remarks, hnone SwitchDefault.yields_remarks,
    hnone DuplicateCase.yields_remarks, hnone ListKey.yields_remarks, List.nil_append,
    List.append_nil]

end TreeLint
