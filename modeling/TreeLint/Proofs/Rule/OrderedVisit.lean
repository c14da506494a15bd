import TreeLint.Proofs.List.Selection
import TreeLint.Proofs.Rule.Completion

/-!
# Visits of ordered trees, node by node

In an ordered tree no node is refused a range, so the range and the characters of a node are plain
functions of the text (`Node.rangeIn`, `Node.textIn`), and the steps of a check that ask for them
can be carried out (`Source.span_eq_rangeIn`, `Source.textOf_eq_textIn`, `Source.reads_eq_textIn`).
A visit whose checks all come to a result is then the concatenation of these results in the order
of the walk (`Rule.visit_eq_flatMap`, `Rule.visit_eq_filterMap`).
-/

namespace TreeLint

namespace Node

/-- The range of a node in a text. A node that ends before it starts has none; here it counts as
empty. -/
def rangeIn (t : Text) (n : Node) : OffsetRange :=
  let index := PositionIndex.ofText t
  let start := index.offsetOfByte n.label.startByte
  ⟨start, max start (index.offsetOfByte n.label.endByte), Nat.le_max_left _ _⟩

/-- The characters of a node in a text. -/
def textIn (t : Text) (n : Node) : Text := (n.rangeIn t).slice t

instance (n : Node) : Decidable n.Ordered :=
  decidable_of_iff (∀ d ∈ n.preorder, d.label.startByte ≤ d.label.endByte) (by
    rw [Ordered, walk_eq_preorder])

/-- What is found below an ordered node is ordered. -/
theorem Ordered.of_mem_walk {root n : Node} (h : root.Ordered) (hn : n ∈ root.walk) :
    n.Ordered := by
  intro d hd
  exact h d (mem_walk_trans hn hd)

theorem Ordered.bytes_le {n : Node} (h : n.Ordered) : n.label.startByte ≤ n.label.endByte :=
  h n (mem_walk_self n)

theorem mem_children_of_child? {n c : Node} {field : String} (h : n.child? field = some c) :
    c ∈ n.children := List.mem_of_find?_eq_some h

/-- What stands under a field of an ordered node is ordered, being one of its children. -/
theorem Ordered.of_child? {n c : Node} (h : n.Ordered) {field : String}
    (hc : n.child? field = some c) : c.Ordered := h.child (mem_children_of_child? hc)

end Node

section

variable {s : Source} {n : Node}

namespace Source

theorem span_eq_rangeIn (h : n.label.startByte ≤ n.label.endByte) :
    s.span n = .ok (n.rangeIn s.text) := by
  have hle := s.startOf_le_stopOf h
  rw [s.span_eq hle, Except.ok.injEq, OffsetRange.mk.injEq]
  rw [startOf, stopOf, s.index_eq] at hle ⊢
  exact ⟨rfl, (Nat.max_eq_right hle).symm⟩

theorem textOf_eq_textIn (h : n.label.startByte ≤ n.label.endByte) :
    s.textOf n = .ok (n.textIn s.text) := by
  rw [textOf, span_eq_rangeIn h]
  rfl

theorem reads_eq_textIn (h : n.label.startByte ≤ n.label.endByte) (word : String) :
    s.reads n word = .ok (n.textIn s.text == word.toList) := by
  rw [reads, textOf_eq_textIn h]
  rfl

end Source

theorem mapM_eq_ok {α β : Type} {f : α → Except RuleFailure β} {g : α → β} {xs : List α}
    (h : ∀ x ∈ xs, f x = .ok (g x)) : xs.mapM f = .ok (xs.map g) := by
  induction xs with
  | nil => rfl
  | cons x xs ih =>
    rw [List.mapM_cons, h x List.mem_cons_self, ih fun y hy => h y (List.mem_cons_of_mem x hy)]
    rfl

/-- If all checks come to a result, and nodes that fail some test report nothing, then a visit is
the concatenation of what the other nodes report. -/
theorem Rule.visit_eq_flatMap {root : Node} (hroot : s.tree = some (.rooted root)) {i : RuleInfo}
    {o : Options} {check : Source → Options → Node → Except RuleFailure (List Output)}
    {p : Node → Prop} [DecidablePred p] {outs : Node → List Output}
    (h : ∀ n ∈ root.walk, check s o n = .ok (if p n then outs n else [])) :
    (Rule.ofOutputs i fun s o => s.eachNode (check s o)).visit s o =
      ⟨((root.walk.filter (p ·)).flatMap outs).map .output, none⟩ := by
  have hpass : (root.walk.filter (p ·)).flatMap outs =
      root.walk.flatMap fun n => if p n then outs n else [] := by
    refine flatMap_filter_eq ?_ ?_
    · intro n _ hn
      rw [if_pos (of_decide_eq_true hn)]
    · intro n _ hn
      rw [if_neg (of_decide_eq_false hn)]
  show ((s.each Node.walk (check s o)).mapResults _) = _
  rw [Source.each_eq hroot, Run.each_eq_flatMap h, hpass]
  rfl

/-- The same for nodes that report at most one thing each, about a place of theirs. -/
theorem Rule.visit_eq_filterMap {root : Node} (hroot : s.tree = some (.rooted root)) {i : RuleInfo}
    {o : Options} {check : Source → Options → Node → Except RuleFailure (List Output)}
    {p : Node → Prop} [DecidablePred p] {place? : Node → Option Node} {out : Node → Output}
    (h : ∀ n ∈ root.walk, check s o n = .ok (if p n then (place? n).toList.map out else [])) :
    (Rule.ofOutputs i fun s o => s.eachNode (check s o)).visit s o =
      ⟨((root.walk.filter (p ·)).filterMap place?).map fun c => .output (out c), none⟩ := by
  rw [Rule.visit_eq_flatMap hroot h, ← List.map_flatMap, ← List.filterMap_eq_flatMap_toList,
    List.map_map]
  rfl

end

end TreeLint
