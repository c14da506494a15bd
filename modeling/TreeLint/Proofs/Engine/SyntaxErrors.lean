import TreeLint.Proofs.Engine.Fix

/-!
# Syntax errors keep the rules away

A node is a syntax error if the parser marked it as one or made it up. Beside that the parser sets
a flag on every node that is a syntax error or has one below (`Node.Flagged`), and the search for
the first error does not enter nodes without the flag. A parser promises

* that the flag is never left out, and
* that the root has it only if there is an error somewhere.

From the first it follows that what the search passes over holds no error, so that it finds what a
search of the whole tree in preorder finds (`firstErrorByte_eq`). With the second, a frontend that
refuses syntax errors refuses a tree exactly when it has one, and names the first of them
(`parse_flagged`); an engine with such a frontend runs its rules on the other trees only
(`analyze_flagged`).
-/

namespace TreeLint

namespace Node

/-! ### The search for the first error -/

/-- The flag of every node is set if the node is a syntax error or has one below. -/
def MarksErrors (root : Node) : Prop :=
  ∀ n ∈ root.walk, (∃ d ∈ n.walk, d.isError = true) → n.label.hasError = true

/-- The flags are set where there are errors, and on the root only then. -/
structure Flagged (root : Node) : Prop where
  marks : root.MarksErrors
  hasError : root.label.hasError = true → ∃ d ∈ root.walk, d.isError = true

theorem MarksErrors.child {n c : Node} (h : n.MarksErrors) (hc : c ∈ n.children) :
    c.MarksErrors := by
  intro d hd
  exact h d (mem_walk_of_mem_child hc hd)

/-- Below a node without the flag there is no error. -/
theorem MarksErrors.find?_eq_none {n : Node} (h : n.MarksErrors) (hn : n.label.hasError = false) :
    (n.children.flatMap walk).find? isError = none := by
  rw [List.find?_eq_none]
  intro d hd herr
  obtain ⟨c, hc, hdc⟩ := List.mem_flatMap.1 hd
  have hflag := h n (mem_walk_self n) ⟨d, mem_walk_of_mem_child hc hdc, herr⟩
  rw [hn] at hflag
  cases hflag

/-- What the search does not enter holds no error, so that it finds the first one of all the trees
on the agenda. -/
theorem errorIn_eq {agenda : List Node} (h : ∀ n ∈ agenda, n.MarksErrors) :
    errorIn agenda = ((agenda.flatMap walk).find? isError).map (·.label.startByte) := by
  induction agenda using errorIn.induct with
  | case1 =>
    rw [errorIn]
    rfl
  | case2 n rest herr =>
    rw [errorIn, if_pos herr, List.flatMap_cons, walk_eq_cons, List.cons_append,
      List.find?_cons_of_pos herr]
    rfl
  | case3 n rest herr ih =>
    have hn := h n List.mem_cons_self
    have hrest : ∀ m ∈ rest, m.MarksErrors := fun m hm => h m (List.mem_cons_of_mem n hm)
    rw [errorIn, if_neg herr, List.flatMap_cons, walk_eq_cons, List.cons_append,
      List.find?_cons_of_neg herr]
    cases hflag : n.label.hasError with
    | true =>
      rw [hflag, dif_pos rfl] at ih
      rw [if_pos rfl, ih, List.flatMap_append]
      intro m hm
      rcases List.mem_append.1 hm with hchild | hm
      · exact hn.child hchild
      · exact hrest m hm
    | false =>
      rw [hflag, dif_neg Bool.false_ne_true, List.nil_append] at ih
      rw [if_neg Bool.false_ne_true, List.nil_append, ih hrest, List.find?_append,
        hn.find?_eq_none hflag, Option.none_or]

/-- **The search finds the first error.** Leaving out nodes without the flag changes nothing. -/
theorem MarksErrors.firstErrorByte_eq {root : Node} (h : root.MarksErrors) :
    root.firstErrorByte = (root.preorder.find? isError).map (·.label.startByte) := by
  rw [firstErrorByte, errorIn_eq (by simpa using h), List.flatMap_singleton, walk_eq_preorder]

/-- The root has the flag exactly if there is an error somewhere. -/
theorem Flagged.hasError_iff {root : Node} (h : root.Flagged) :
    root.label.hasError = true ↔ ∃ d ∈ root.preorder, d.isError = true := by
  rw [← walk_eq_preorder]
  exact ⟨h.hasError, h.marks root (mem_walk_self root)⟩

end Node

/-! ### Trees that are refused -/

namespace Frontend

/-- **A tree is refused for its first error.** -/
theorem parse_flagged {f : Frontend} (hf : f.rejectsErrors = true) (kind : FileKind) {root : Node}
    (h : root.Flagged) :
    (f.parse kind (.tree (.rooted root))).1 =
      match root.preorder.find? Node.isError with
      | some d => .error (.syntaxErrors (some d.label.startByte))
      | none => .ok root := by
  rw [(f.parse_tree kind _).1, accept, hf, Bool.true_and, h.marks.firstErrorByte_eq]
  cases hfind : root.preorder.find? Node.isError with
  | some d =>
    have hflag := h.hasError_iff.2 ⟨d, List.mem_of_find?_eq_some hfind, List.find?_some hfind⟩
    rw [if_pos hflag]
    rfl
  | none =>
    have hflag : ¬root.label.hasError = true := by
      rw [h.hasError_iff]
      rintro ⟨d, hd, herr⟩
      exact List.find?_eq_none.1 hfind d hd herr
    rw [if_neg hflag]

theorem exists_error_iff {f : Frontend} (hf : f.rejectsErrors = true) (kind : FileKind)
    {root : Node} (h : root.Flagged) :
    (∃ err, (f.parse kind (.tree (.rooted root))).1 = .error err) ↔
      ∃ d ∈ root.preorder, d.isError = true := by
  rw [parse_flagged hf kind h]
  cases hfind : root.preorder.find? Node.isError with
  | some d =>
    have herr : ∃ d ∈ root.preorder, d.isError = true :=
      ⟨d, List.mem_of_find?_eq_some hfind, List.find?_some hfind⟩
    exact iff_of_true ⟨_, rfl⟩ herr
  | none =>
    have hnone : ¬∃ d ∈ root.preorder, d.isError = true := by
      rintro ⟨d, hd, herr⟩
      exact List.find?_eq_none.1 hfind d hd herr
    refine iff_of_false ?_ hnone
    rintro ⟨err, herr⟩
    cases herr

end Frontend

/-! ### Analyses -/

namespace Engine

/-- What comes of an analysis is decided by what the frontend makes of the parser's answer. -/
theorem analyze_fst_eq {e : Engine} {c : Config} {name : Option String} {kind : FileKind}
    {rules : List Rule} (text : Text) (hk : FileKind.ofName name = .ok kind)
    (hrules : e.rulesFor c kind = .ok rules) (answer : ParserAnswer) :
    (e.analyze c text name answer).1 =
      match (e.frontend.parse kind answer).1 with
      | .error err => do
        Attempt.warn (.parseFailed kind err.message)
        return {}
      | .ok root => analyzeSource c rules (sourceOf kind text root) := by
  unfold analyze
  simp only [hk, hrules]
  cases (e.frontend.parse kind answer).1 <;> rfl

/-- **Syntax errors are refused, and named by the first.** For every tree that is flagged as a
parser promises, a frontend that refuses syntax errors

* refuses the tree exactly if some node is a syntax error, at any depth;
* then names the byte at which the first of them in preorder starts: the search that follows the
  flags finds what a search of the whole tree finds.

So the engine runs its rules on trees without a syntax error and on no other: an analysis of a tree
with one is empty and tells of the refusal. -/
theorem analyze_flagged {e : Engine} (he : e.frontend.rejectsErrors = true) (kind : FileKind)
    {root : Node} (h : root.Flagged) :
    ((∃ err, (e.frontend.parse kind (.tree (.rooted root))).1 = .error err) ↔
      ∃ d ∈ root.preorder, d.isError = true) ∧
    root.firstErrorByte = (root.preorder.find? Node.isError).map (·.label.startByte) ∧
    (∀ err, (e.frontend.parse kind (.tree (.rooted root))).1 = .error err →
      ∃ d, root.preorder.find? Node.isError = some d ∧
        err = .syntaxErrors (some d.label.startByte) ∧
        err.message = "Source has syntax errors at " ++ toString d.label.startByte) ∧
    ∀ (c : Config) (text : Text) (name : Option String) (rules : List Rule),
      FileKind.ofName name = .ok kind → e.rulesFor c kind = .ok rules →
      (e.analyze c text name (.tree (.rooted root))).1 =
        match root.preorder.find? Node.isError with
        | some d => do
          Attempt.warn (.parseFailed kind
            ("Source has syntax errors at " ++ toString d.label.startByte))
          return {}
        | none => analyzeSource c rules (sourceOf kind text root) := by
  have hparse := Frontend.parse_flagged he kind h
  refine ⟨Frontend.exists_error_iff he kind h, h.marks.firstErrorByte_eq, ?_, ?_⟩
  · intro err herr
    rw [hparse] at herr
    cases hfind : root.preorder.find? Node.isError with
    | some d =>
      rw [hfind] at herr
      cases herr
      exact ⟨d, rfl, rfl, rfl⟩
    | none =>
      rw [hfind] at herr
      cases herr
  · intro c text name rules hk hrules
    rw [analyze_fst_eq text hk hrules, hparse]
    cases root.preorder.find? Node.isError with
    | some d => rfl
    | none => rfl

/-- A tree with a leaf that the parser made up, and behind it an error with another one inside. -/
def brokenRoot : Node :=
  .mk { kind := "program", named := true, hasError := true, startByte := 0, endByte := 9 }
    [.mk { kind := "comment", named := true, startByte := 0, endByte := 1 } [],
      .mk { kind := "expression_statement", named := true, hasError := true, startByte := 1,
            endByte := 4 }
        [.mk { kind := "identifier", named := true, startByte := 1, endByte := 4 } [],
          .mk { kind := ";", missing := true, hasError := true, startByte := 4, endByte := 4 } []],
      .mk { kind := "ERROR", named := true, hasError := true, startByte := 5, endByte := 9 }
        [.mk { kind := "ERROR", named := true, hasError := true, startByte := 6, endByte := 7 } []]]

theorem brokenRoot_flagged : brokenRoot.Flagged where
  marks := by
    unfold Node.MarksErrors
    simp only [Node.walk_eq_preorder]
    decide
  hasError := by
    simp only [Node.walk_eq_preorder]
    decide

/-- The leaf comes first in preorder, although the error behind it stands higher in the tree. The
rules do not run. -/
theorem brokenRoot_refused :
    brokenRoot.Flagged ∧
    ((builtIn {}).frontend.parse .ts (.tree (.rooted brokenRoot))).1 =
      .error (.syntaxErrors (some 4)) ∧
    ((builtIn {}).analyze {} "/abc d e ".toList (some "ts")
      (.tree (.rooted brokenRoot))).1.result = .ok {} := by
  have h := brokenRoot_flagged
  have hc : Config.WellTyped {} := ⟨rfl, rfl, rfl, rfl, rfl⟩
  have hfind : brokenRoot.preorder.find? Node.isError =
      some (.mk { kind := ";", missing := true, hasError := true, startByte := 4,
                  endByte := 4 } []) := rfl
  obtain ⟨hiff, -, hbyte, hanalyze⟩ := analyze_flagged (e := builtIn {}) rfl .ts h
  refine ⟨h, ?_, ?_⟩
  · obtain ⟨err, herr⟩ := hiff.2 ⟨_, List.mem_of_find?_eq_some hfind, rfl⟩
    obtain ⟨d, hd, rfl, -⟩ := hbyte err herr
    rw [hfind] at hd
    cases hd
    exact herr
  · rw [hanalyze {} _ _ _ rfl (rulesFor_eq hc _ .ts), hfind]
    rfl

end Engine

end TreeLint
