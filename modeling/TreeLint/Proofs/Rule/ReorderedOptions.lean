import TreeLint.Proofs.Engine.Contribution
import TreeLint.Proofs.Rule.Completion
import TreeLint.Proofs.Rule.Options
import TreeLint.Proofs.Value.Reordered

/-!
# Options in another order

An option may be given a mapping, and the rules that read one differ in what they make of the order
of its entries. A flag asks only whether there are any. The suffixes of imports are tried one after
the other, which matters if some keys are strings and others are not: an import may be skipped
before a key comes that no path can be compared with. But it is skipped or it fails, and so nothing
is kept either way (`FolderImport.kept_eq_nil_of_mem`). Only the stem of handler names is all that
the value reads as. If there is no order in it (`Value.Rigid`), the same is kept of a visit with
reordered options (`kept_eq_of_reordered`).
-/

namespace TreeLint

open Value

/-- Two sets of options give every name reordered values, or none. -/
def Options.Reordered (o o' : Options) : Prop :=
  ∀ name : String, Option.Rel Value.Reordered (Entries.get? (.str name) o)
    (Entries.get? (.str name) o')

theorem Options.Reordered.get {o o' : Options} (h : o.Reordered o') (name : String)
    (default : Value) :
    Value.Reordered (Options.get o name default) (Options.get o' name default) := by
  have hrel := h name
  unfold Options.get
  generalize Entries.get? (.str name) o = found at hrel
  generalize Entries.get? (.str name) o' = found' at hrel
  cases hrel with
  | none => exact .refl default
  | some hvalue => exact hvalue

/-! ### Suffixes of imports -/

namespace FolderImport

variable {s : Source} {skipped skipped' : List Value}

theorem suffixes_list (xs : List Value) : suffixes (.list xs) = .ok xs := by
  cases xs <;> rfl

theorem suffixes_map (es : Entries) :
    suffixes (.map es) = .ok (es.map fun e => .scalar e.1) := by
  cases es <;> rfl

/-- Strings skip the same paths in every order. -/
theorem isSkipped_perm (path : Text) (h : skipped.Perm skipped')
    (hstrings : ∀ v ∈ skipped, v.isString = true) :
    isSkipped path skipped = isSkipped path skipped' := by
  have hstrings' : ∀ v ∈ skipped', v.isString = true := fun v hv => hstrings v (h.mem_iff.2 hv)
  rw [isSkipped_of_strings path hstrings, isSkipped_of_strings path hstrings', h.any_eq]

/-- With a value among the suffixes that is no string, no path gets through. -/
theorem isSkipped_ne_false (path : Text) {v : Value} (hv : v ∈ skipped)
    (hstring : v.isString = false) : isSkipped path skipped ≠ .ok false := by
  induction skipped with
  | nil => cases hv
  | cons w rest ih =>
    rw [isSkipped_cons]
    cases hends : endsIn? path w with
    | none => nofun
    | some ends =>
      cases ends with
      | true => nofun
      | false =>
        have hw : w.isString = true := by rw [← isSome_endsIn? path, hends]; rfl
        rcases List.mem_cons.1 hv with rfl | hrest
        · rw [hstring] at hw
          cases hw
        · exact ih hrest

/-- No mapping inside a list is a string, in whatever order its entries come. -/
theorem endsIn?_eq_of_reordered (path : Text) {v w : Value} (h : v.Reordered w) :
    endsIn? path v = endsIn? path w :=
  h.eq_of_shape (fun _ _ => rfl) (fun _ _ => rfl) fun _ _ _ _ => rfl

theorem isSkipped_congr (path : Text) (before after : List Value) {v w : Value}
    (h : v.Reordered w) :
    isSkipped path (before ++ v :: after) = isSkipped path (before ++ w :: after) := by
  induction before with
  | nil =>
    rw [List.nil_append, List.nil_append, isSkipped_cons, isSkipped_cons,
      endsIn?_eq_of_reordered path h]
  | cons x before ih => rw [List.cons_append, List.cons_append, isSkipped_cons, isSkipped_cons, ih]

/-- A visit with some suffixes. -/
def visitSkipping (s : Source) (skipped : List Value) : Run Yield :=
  (s.eachNode (check s skipped)).mapResults (List.map Yield.output)

/-- The suffixes do not matter but for the paths they skip. -/
theorem visitSkipping_congr (h : ∀ path, isSkipped path skipped = isSkipped path skipped') :
    visitSkipping s skipped = visitSkipping s skipped' := by
  have hcheck : check s skipped = check s skipped' := by
    funext n
    simp only [check, h]
  rw [visitSkipping, hcheck, visitSkipping]

/-- **A suffix that is no string leaves nothing.** Every import is skipped, or its check fails. -/
theorem kept_eq_nil_of_mem {v : Value} (hv : v ∈ skipped) (hstring : v.isString = false) (n : Nat) :
    (visitSkipping s skipped).kept n = [] := by
  have hchecks : ∀ c, AllResults (fun _ => False) (check s skipped c) := by
    intro c
    unfold check
    split
    · exact AllResults.nil
    · refine AllResults.bind fun quoted => ?_
      split
      · exact AllResults.error _
      · rename_i inner _
        have hpath := isSkipped_ne_false (inner.slice s.text) hv hstring
        simp only
        generalize isSkipped (inner.slice s.text) skipped = skip at hpath ⊢
        cases skip with
        | error e => exact AllResults.error e
        | ok b =>
          cases b with
          | true => exact AllResults.nil
          | false => exact absurd rfl hpath
  have hnone : (s.eachNode (check s skipped)).results = [] :=
    List.eq_nil_iff_forall_not_mem.2 (Source.mem_results_each hchecks s Node.walk)
  simp only [visitSkipping, Run.mapResults, Run.kept, hnone, List.map_nil, List.filterMap_nil,
    List.filter_nil, ite_self]

/-- The same is kept with the values of a mapping for keys in another order. -/
theorem kept_perm (h : skipped.Perm skipped') (n : Nat) :
    (visitSkipping s skipped).kept n = (visitSkipping s skipped').kept n := by
  by_cases hstrings : ∀ v ∈ skipped, v.isString = true
  · rw [visitSkipping_congr fun path => isSkipped_perm path h hstrings]
  · push Not at hstrings
    obtain ⟨v, hv, hstring⟩ := hstrings
    rw [kept_eq_nil_of_mem hv (by simpa using hstring),
      kept_eq_nil_of_mem (h.mem_iff.1 hv) (by simpa using hstring)]

/-- A visit with a value for the suffixes. -/
def visitWith (s : Source) (option : Value) : Run Yield :=
  match suffixes option with
  | .error e => { failure := some e }
  | .ok skipped => visitSkipping s skipped

theorem visitWith_list (xs : List Value) : visitWith s (.list xs) = visitSkipping s xs := by
  rw [visitWith, suffixes_list]

theorem visitWith_map (es : Entries) :
    visitWith s (.map es) = visitSkipping s (es.map fun e => .scalar e.1) := by
  rw [visitWith, suffixes_map]

theorem visit_eq_visitWith {o : Options} (htree : s.tree.isNone = false) :
    rule.visit s o = visitWith s (Options.get o "skip_suffixes" defaultSuffixes) := by
  simp only [rule, Rule.ofOutputs, htree, Bool.false_eq_true, if_false, visitWith]
  cases suffixes (Options.get o "skip_suffixes" defaultSuffixes) <;> rfl

/-- **Of a visit with reordered suffixes the same is kept.** -/
theorem kept_visitWith_of_reordered {v w : Value} (h : v.Reordered w) (n : Nat) :
    (visitWith s v).kept n = (visitWith s w).kept n := by
  induction h with
  | refl v => rfl
  | trans _ _ ih ih' => exact ih.trans ih'
  | perm h =>
    rw [visitWith_map, visitWith_map]
    exact kept_perm (h.map _) n
  | entry before after key _ _ =>
    rw [visitWith_map, visitWith_map, List.map_append, List.map_append]
    rfl
  | item before after h _ =>
    rw [visitWith_list, visitWith_list,
      visitSkipping_congr fun path => isSkipped_congr path before after h]
  | first second h _ =>
    exact congrArg (Run.kept n) (visitSkipping_congr fun path => isSkipped_congr path [] [second] h)
  | second first h _ =>
    exact congrArg (Run.kept n) (visitSkipping_congr fun path => isSkipped_congr path [first] [] h)

theorem kept_eq_of_reordered {o o' : Options} (h : o.Reordered o') (n : Nat) :
    (rule.visit s o).kept n = (rule.visit s o').kept n := by
  cases htree : s.tree.isNone with
  | true => simp only [rule, Rule.ofOutputs, htree, if_true]
  | false =>
    rw [visit_eq_visitWith htree, visit_eq_visitWith htree]
    exact kept_visitWith_of_reordered (h.get _ _) n

end FolderImport

/-! ### Visits -/

/-- **Of a visit with reordered options the same is kept**, if there is no order in the stem. -/
theorem kept_eq_of_reordered {rule : Rule} (hrule : rule ∈ builtInRules) {o o' : Options}
    (h : o.Reordered o') (hstem : rule.id = HandlerName.rule.id → (HandlerName.given o).Rigid)
    (s : Source) (n : Nat) : (rule.visit s o).kept n = (rule.visit s o').kept n := by
  have hnone : ∀ {rule : Rule}, (∀ s o o', rule.visit s o = rule.visit s o') →
      (rule.id = HandlerName.rule.id → (HandlerName.given o).Rigid) →
      (rule.visit s o).kept n = (rule.visit s o').kept n :=
    fun h _ => by rw [h s o o']
  revert rule
  simp only [builtInRules, List.forall_mem_cons]
  refine ⟨hnone fun _ _ _ => rfl, fun _ => ?_, hnone fun _ _ _ => rfl,
    fun _ => FolderImport.kept_eq_of_reordered h n, fun hstem => ?_, hnone fun _ _ _ => rfl,
    hnone fun _ _ _ => rfl, fun _ => ?_, by simp⟩
  · simp only [MissingReturnType.rule, Rule.ofOutputs, (h.get _ _).truthy_eq]
  · have hgiven : HandlerName.given o = HandlerName.given o' :=
      (h.get _ _).eq_of_rigid (hstem trivial)
    rw [HandlerName.visit_eq_of_given hgiven]
  · simp only [ListKey.rule, Rule.ofOutputs, (h.get _ _).truthy_eq]

end TreeLint
