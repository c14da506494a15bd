import TreeLint.Proofs.Edit.Splice
import TreeLint.Proofs.Rule.Outputs
import TreeLint.Proofs.Rule.Span
import TreeLint.Proofs.Tree.Shape

/-!
# How imports are rewritten

The rule about imports decides path by path: one that starts with `../` and has none of the
skipped suffixes is to be rewritten (`FolderImport.isRewritten`). This module says what the edits
of a whole visit are:

* `filterMap_check` — a node that is checked without a failure proposes the edit of its path, if
  there is one, and no other;
* `edits_visit` — a visit proposes no edits at all, or those of all the paths of the tree
  (`FolderImport.rewrites`);
* `rewrites_fit`, `rewrites_apart` — these lie in the text, and in a nested tree they keep their
  distance, so that they can be applied together;
* `exists_of_mem_rewrites` — each of them puts `./` before a quoted path of the tree that starts
  with `../` (`FolderImport.Rewrites`).
-/

namespace TreeLint

namespace FolderImport

/-! ### The edit of one path -/

/-- The quoted path of an import, however short. -/
def source? (n : Node) : Option Node :=
  if n.kind = "import_statement" then (n.child? "source").filter (·.kind == "string") else none

theorem child_of_source? {n c : Node} (h : source? n = some c) : c ∈ n.children := by
  unfold source? at h
  split at h
  · exact List.mem_of_find?_eq_some (Option.filter_eq_some_iff.1 h).1
  · cases h

theorem kind_of_source? {n c : Node} (h : source? n = some c) : c.kind = "string" := by
  unfold source? at h
  split at h
  · exact eq_of_beq (Option.filter_eq_some_iff.1 h).2
  · cases h

theorem source?_eq_none {n : Node} (h : n.kind ≠ "import_statement") : source? n = none := by
  rw [source?, if_neg h]

/-- The characters between the quotes. -/
def pathOf (s : Source) (c : Node) : Text := s.text.slice (s.startOf c + 1) (s.stopOf c - 1)

/-- Whether a path is to be rewritten. -/
def isRewritten (skipped : List Value) (path : Text) : Bool :=
  "../".toList.isPrefixOf path && (isSkipped path skipped).toOption == some false

/-- The edit of a quoted path, if it is to be rewritten. -/
def rewrite? (s : Source) (skipped : List Value) (c : Node) : Option Edit :=
  if isRewritten skipped (pathOf s c) then
    some ⟨(s.startOf c + 1 : Nat), (s.stopOf c - 1 : Nat), "./".toList ++ pathOf s c, info.id⟩
  else none

variable {s : Source} {skipped : List Value}

theorem prefix_of_isRewritten {path : Text} (h : isRewritten skipped path = true) :
    "../".toList <+: path := by
  rw [isRewritten, Bool.and_eq_true] at h
  exact List.isPrefixOf_iff_prefix.1 h.1

/-- A path in front of which `./` was put is not rewritten again. -/
theorem isRewritten_dotted (path : Text) : isRewritten skipped ("./".toList ++ path) = false := rfl

theorem isRewritten_nil : isRewritten skipped [] = false := rfl

/-- Less than two characters hold no path between quotes. -/
theorem pathOf_eq_nil {c : Node} (h : s.stopOf c ≤ s.startOf c + 1) : pathOf s c = [] := by
  rw [← List.length_eq_zero_iff, pathOf, Text.length_slice]
  omega

theorem rewrite?_eq_none_of_short {c : Node}
    (h : ¬2 ≤ c.label.endByte - c.label.startByte) : rewrite? s skipped c = none := by
  rw [rewrite?, pathOf_eq_nil (s.stopOf_le_succ (by omega)), isRewritten_nil]
  rfl

theorem isRewritten_of_rewrite? {c : Node} {e : Edit} (h : rewrite? s skipped c = some e) :
    isRewritten skipped (pathOf s c) = true := by
  rw [rewrite?] at h
  split at h
  · assumption
  · cases h

/-- An edit that puts `./` before the path between the quotes of a node. -/
structure Rewrites (s : Source) (c : Node) (e : Edit) : Prop where
  start_eq : e.start = (s.startOf c + 1 : Nat)
  stop_eq : e.stop = (s.stopOf c - 1 : Nat)
  newText_eq : e.newText = "./".toList ++ s.text.slice e.start.toNat e.stop.toNat
  dotted : "../".toList <+: s.text.slice e.start.toNat e.stop.toNat
  long : s.startOf c + 5 ≤ s.stopOf c

theorem rewrites_of_rewrite? {c : Node} {e : Edit} (h : rewrite? s skipped c = some e) :
    Rewrites s c e := by
  have hr := isRewritten_of_rewrite? h
  have hdots := prefix_of_isRewritten hr
  rw [rewrite?, if_pos hr] at h
  cases h
  refine ⟨rfl, rfl, rfl, hdots, ?_⟩
  have hlen := hdots.length_le
  rw [pathOf, Text.length_slice] at hlen
  have hthree : "../".toList.length = 3 := rfl
  omega

theorem Rewrites.toNat_start {c : Node} {e : Edit} (h : Rewrites s c e) :
    e.start.toNat = s.startOf c + 1 := by
  rw [h.start_eq]
  rfl

/-! ### The edits of one node -/

theorem pathNode?_eq (n : Node) :
    pathNode? n =
      (source? n).filter fun c => decide (2 ≤ c.label.endByte - c.label.startByte) := by
  unfold pathNode? source?
  split
  · cases n.child? "source" with
    | none => rfl
    | some c => simp
  · rfl

/-- What is reported holds an edit exactly for the paths that start with `../`. -/
theorem filterMap_report (inner : OffsetRange) (path : Text) :
    (report inner path).filterMap Output.edit? =
      if "../".toList.isPrefixOf path then
        [⟨inner.start, inner.stop, "./".toList ++ path, info.id⟩]
      else [] := by
  have hfile : ∀ (p : Prop) [Decidable p] (range : OffsetRange) (m : String),
      (if p then [info.diagnostic range m] else []).filterMap Output.edit? = [] := by
    intro p _ range m
    split <;> rfl
  rw [report, List.filterMap_append, hfile, List.nil_append]
  split <;> rfl

/-- A quoted path with room for its quotes is checked for its suffix first. -/
theorem check_of_long {n c : Node} (hp : pathNode? n = some c)
    (hlong : s.startOf c + 2 ≤ s.stopOf c) :
    check s skipped n = (isSkipped (pathOf s c) skipped).map fun skip =>
      if skip then [] else
        report ⟨s.startOf c + 1, s.stopOf c - 1, by omega⟩ (pathOf s c) := by
  have hinner : OffsetRange.of ((s.startOf c : Int) + 1) ((s.stopOf c : Int) - 1) =
      .ok ⟨s.startOf c + 1, s.stopOf c - 1, by omega⟩ := by
    rw [OffsetRange.of_ok_iff]
    simp only
    omega
  have hspan := s.span_eq (n := c) (by omega)
  have hslice : OffsetRange.slice ⟨s.startOf c + 1, s.stopOf c - 1, by omega⟩ s.text =
      pathOf s c := rfl
  unfold check
  simp only [hp, hspan, bind, Except.bind, hinner, hslice]
  cases isSkipped (pathOf s c) skipped with
  | error e => rfl
  | ok skip => cases skip <;> rfl

/-- Quotes that overlap make the check fail. -/
theorem check_of_short {n c : Node} (hp : pathNode? n = some c)
    (hle : s.startOf c ≤ s.stopOf c) (hshort : s.stopOf c < s.startOf c + 2) :
    ∃ e, check s skipped n = .error e := by
  have hinner : OffsetRange.of ((s.startOf c : Int) + 1) ((s.stopOf c : Int) - 1) =
      .error ⟨(s.startOf c : Int) + 1, (s.stopOf c : Int) - 1⟩ := by
    rw [OffsetRange.of, dif_neg (by omega)]
  unfold check
  simp only [hp, s.span_eq hle, bind, Except.bind, hinner]
  exact ⟨_, rfl⟩

/-- **The edits of one node.** A check that does not fail proposes the edit of the node's path,
if there is one, and no other. -/
theorem filterMap_check (n : Node) (outs : List Output) (h : check s skipped n = .ok outs) :
    outs.filterMap Output.edit? = ((source? n).bind (rewrite? s skipped)).toList := by
  have hpath := pathNode?_eq n
  cases hsrc : source? n with
  | none =>
    rw [hsrc, Option.filter_none] at hpath
    have hnothing : check s skipped n = .ok [] := by
      simp only [check, hpath]
      rfl
    rw [hnothing] at h
    cases h
    rfl
  | some c =>
    rw [hsrc, Option.filter_some] at hpath
    rw [Option.bind_some]
    by_cases hlen : 2 ≤ c.label.endByte - c.label.startByte
    · rw [if_pos (by simpa using hlen)] at hpath
      have hle := s.startOf_le_stopOf (n := c) (by omega)
      rcases Nat.lt_or_ge (s.stopOf c) (s.startOf c + 2) with hshort | hlong
      · obtain ⟨e, he⟩ : ∃ e, check s skipped n = .error e := check_of_short hpath hle hshort
        rw [he] at h
        cases h
      · rw [check_of_long hpath hlong] at h
        rw [rewrite?, isRewritten]
        cases hskip : isSkipped (pathOf s c) skipped with
        | error e =>
          rw [hskip] at h
          cases h
        | ok skip =>
          rw [hskip] at h
          cases h
          cases skip with
          | true => simp [Except.toOption]
          | false =>
            show (report _ _).filterMap Output.edit? = _
            rw [filterMap_report]
            cases "../".toList.isPrefixOf (pathOf s c) <;> rfl
    · rw [if_neg (by simpa using hlen)] at hpath
      have hnothing : check s skipped n = .ok [] := by
        simp only [check, hpath]
        rfl
      rw [hnothing] at h
      cases h
      rw [rewrite?_eq_none_of_short hlen]
      rfl

/-! ### The edits of a visit -/

/-- The edits of all quoted paths of a tree, under given suffixes. -/
def rewritesFor (s : Source) (skipped : List Value) (root : Node) : List Edit :=
  (root.walk.filterMap source?).filterMap (rewrite? s skipped)

/-- The edits of all quoted paths of a tree. -/
def rewrites (s : Source) (o : Options) (root : Node) : List Edit :=
  match suffixes (Options.get o "skip_suffixes" defaultSuffixes) with
  | .error _ => []
  | .ok skipped => rewritesFor s skipped root

variable {o : Options} {root : Node}

theorem exists_of_mem_rewrites {e : Edit} (he : e ∈ rewrites s o root) :
    ∃ c ∈ root.walk.filterMap source?, Rewrites s c e := by
  unfold rewrites at he
  split at he
  · cases he
  · obtain ⟨c, hc, hce⟩ := List.mem_filterMap.1 he
    exact ⟨c, hc, rewrites_of_rewrite? hce⟩

theorem rewrites_fit : ∀ e ∈ rewrites s o root, e.fits s.text.length = true := by
  intro e he
  obtain ⟨c, _, hc⟩ := exists_of_mem_rewrites he
  have hstop := s.stopOf_le c
  have hlong := hc.long
  rw [Edit.fits_iff, hc.start_eq, hc.stop_eq]
  omega

/-- Paths that do not overlap have edits at a distance: the quotes lie between them. -/
theorem Rewrites.apart {c d : Node} {e f : Edit} (hc : Rewrites s c e) (hd : Rewrites s d f)
    (h : c.Disjoint d) : Edit.Apart e f := by
  have hlong := hc.long
  have hlong' := hd.long
  rw [Edit.Apart, hc.start_eq, hc.stop_eq, hd.start_eq, hd.stop_eq]
  rcases h with hcd | hdc
  · have := s.stopOf_le_startOf hcd
    omega
  · have := s.stopOf_le_startOf hdc
    omega

theorem rewrites_apart (h : (root.walk.filterMap source?).Pairwise Node.Disjoint) :
    (rewrites s o root).Pairwise Edit.Apart := by
  unfold rewrites
  split
  · exact List.Pairwise.nil
  · rw [rewritesFor, List.pairwise_filterMap]
    refine h.imp ?_
    intro c d hcd e he f hf
    exact (rewrites_of_rewrite? he).apart (rewrites_of_rewrite? hf) hcd

theorem visit_eq (hroot : s.tree = some (.rooted root)) :
    rule.visit s o =
      Run.mapResults (List.map Yield.output)
        (match suffixes (Options.get o "skip_suffixes" defaultSuffixes) with
        | .error e => { failure := some e }
        | .ok skipped => Run.each (check s skipped) root.walk) := by
  have htree : ¬s.tree.isNone = true := by
    rw [hroot]
    exact Bool.false_ne_true
  unfold rule Rule.ofOutputs
  simp only [if_neg htree]
  cases suffixes (Options.get o "skip_suffixes" defaultSuffixes) with
  | error e => rfl
  | ok skipped => simp only [Source.eachNode, Source.each, hroot]

/-- **The edits of a visit.** Either the visit fails and nothing is edited, or every path of the
tree is decided by itself. -/
theorem edits_visit (hroot : s.tree = some (.rooted root)) :
    ((rule.visit s o).kept s.text.length).filterMap Output.edit? = [] ∨
      ((rule.visit s o).kept s.text.length).filterMap Output.edit? = rewrites s o root := by
  have hfit : ∀ e ∈ rewrites s o root, e.fits s.text.length = true := rewrites_fit
  rw [visit_eq hroot]
  unfold rewrites at hfit ⊢
  cases hsuf : suffixes (Options.get o "skip_suffixes" defaultSuffixes) with
  | error e => exact Or.inl rfl
  | ok skipped =>
    simp only [hsuf] at hfit ⊢
    cases hends : (Run.each (check s skipped) root.walk).failure with
    | some e =>
      left
      rw [Run.kept_of_failure]
      · rfl
      · rw [Run.mapResults, hends]
        rfl
    | none =>
      right
      have hedits := Run.filterMap_results_each filterMap_check hends
      rw [← List.filterMap_filterMap, ← rewritesFor] at hedits
      have houtputs : ∀ outs : List Output,
          (outs.map Yield.output).filterMap Yield.output? = outs := by
        intro outs
        rw [List.filterMap_map]
        exact List.filterMap_some
      rw [Run.kept, Run.mapResults, hends, if_neg (by simp)]
      have hfits : ∀ out e, Output.edit? out = some e →
          out.fits s.text.length = e.fits s.text.length := by
        intro out e he
        cases out <;> cases he
        rfl
      rw [houtputs, filterMap_filter_comm hfits, hedits, List.filter_eq_self]
      exact hfit

end FolderImport

end TreeLint
