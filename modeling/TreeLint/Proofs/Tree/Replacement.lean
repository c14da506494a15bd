import TreeLint.Tree.Query

/-!
# Trees with one child replaced

A rule finds its way through a tree by a few questions: the child under a field, the first part,
the last part. Each is answered by the place of a child among its siblings: `Node.IsUnder`,
`Node.IsFirstPart`, `Node.IsLastPart`.

To say that a verdict stays the same when something deep in a tree is replaced, the replacement is
described by the same places, one for each step of the way (`Node.Replaces`). The question that led
to the child then leads to what is put in its place, and questions about other fields have the
answers that they had.
-/

namespace TreeLint

namespace Node

/-- A child between its siblings is the first one under a field. -/
def IsUnder (field : String) (front : List Node) (c : Node) (_back : List Node) : Prop :=
  (∀ d ∈ front, d.label.field ≠ some field) ∧ c.label.field = some field

/-- A child between its siblings is the first part. -/
def IsFirstPart (front : List Node) (c : Node) (_back : List Node) : Prop :=
  (∀ d ∈ front, d.isPart = false) ∧ c.isPart = true

/-- A child between its siblings is the last part. -/
def IsLastPart (_front : List Node) (c : Node) (back : List Node) : Prop :=
  (∀ d ∈ back, d.isPart = false) ∧ c.isPart = true

/-- The second node is the first with the child at some place replaced by another one that has the
same place. -/
inductive Replaces (place : List Node → Node → List Node → Prop) (c c' : Node) :
    Node → Node → Prop where
  | mk (l : Label) (front back : List Node) (found : place front c back)
    (found' : place front c' back) :
    Replaces place c c' (.mk l (front ++ c :: back)) (.mk l (front ++ c' :: back))

variable {place : List Node → Node → List Node → Prop} {field other : String} {c c' n n' : Node}
  {l : Label} {front back : List Node}

/-! ### Questions and places -/

theorem IsUnder.child?_eq (h : IsUnder field front c back) :
    (mk l (front ++ c :: back)).child? field = some c := by
  have hfront : front.find? (fun d => d.label.field == some field) = none := by
    rw [List.find?_eq_none]
    intro d hd
    simpa using h.1 d hd
  rw [child?, children_mk, List.find?_append, hfront, Option.none_or,
    List.find?_cons_of_pos (by simp [h.2])]

theorem filter_isPart_eq_nil {cs : List Node} (h : ∀ d ∈ cs, d.isPart = false) :
    cs.filter isPart = [] := by
  rw [List.filter_eq_nil_iff]
  intro d hd
  simp [h d hd]

theorem firstPart?_eq_none (h : ∀ d ∈ n.children, d.isPart = false) : n.firstPart? = none := by
  rw [firstPart?, parts, filter_isPart_eq_nil h, List.head?_nil]

theorem IsFirstPart.firstPart?_eq (h : IsFirstPart front c back) :
    (mk l (front ++ c :: back)).firstPart? = some c := by
  rw [firstPart?, parts, children_mk, List.filter_append, filter_isPart_eq_nil h.1,
    List.nil_append, List.filter_cons_of_pos h.2, List.head?_cons]

theorem IsLastPart.lastPart?_eq (h : IsLastPart front c back) :
    (mk l (front ++ c :: back)).lastPart? = some c := by
  rw [lastPart?, parts, children_mk, List.filter_append, List.filter_cons_of_pos h.2,
    filter_isPart_eq_nil h.1, List.getLast?_concat]

/-- The keyword of an accessor is seen on the labels of the children. -/
theorem isAccessorOrConstructor_eq_of_labels (h : n'.children.map label = n.children.map label) :
    n'.isAccessorOrConstructor = n.isAccessorOrConstructor := by
  have hlabels : ∀ (m : Node) (name : Text), m.isAccessorOrConstructor name =
      (isConstructorName name ||
        ((m.children.map label).takeWhile (·.field != some "name")).any
          (["get", "set"].contains ·.kind)) := by
    intro m name
    rw [List.takeWhile_map, List.any_map]
    rfl
  funext name
  rw [hlabels, hlabels, h]

/-! ### Both sides of a replacement -/

namespace Replaces

theorem kind_eq (h : Replaces place c c' n n') : n'.kind = n.kind := by
  cases h
  rfl

/-- The children have the labels that they had, if the replacement has the label of the child. -/
theorem labels_eq (h : Replaces place c c' n n') (hlabel : c'.label = c.label) :
    n'.children.map label = n.children.map label := by
  cases h
  simp [hlabel]

theorem child?_eq (h : Replaces (IsUnder field) c c' n n') :
    n.child? field = some c ∧ n'.child? field = some c' := by
  cases h with
  | mk _ _ _ found found' => exact ⟨found.child?_eq, found'.child?_eq⟩

/-- Other fields lead to what they led to. -/
theorem child?_of_ne (h : Replaces (IsUnder field) c c' n n') (hne : other ≠ field) :
    n'.child? other = n.child? other := by
  cases h with
  | mk _ front back found found' =>
    have hskip : ∀ d : Node, d.label.field = some field →
        (d :: back).find? (fun e => e.label.field == some other) =
          back.find? fun e => e.label.field == some other := by
      intro d hd
      refine List.find?_cons_of_neg ?_
      simpa [hd] using Ne.symm hne
    rw [child?, child?, children_mk, children_mk, List.find?_append, List.find?_append,
      hskip c found.2, hskip c' found'.2]

theorem firstPart?_eq (h : Replaces IsFirstPart c c' n n') :
    n.firstPart? = some c ∧ n'.firstPart? = some c' := by
  cases h with
  | mk _ _ _ found found' => exact ⟨found.firstPart?_eq, found'.firstPart?_eq⟩

theorem lastPart?_eq (h : Replaces IsLastPart c c' n n') :
    n.lastPart? = some c ∧ n'.lastPart? = some c' := by
  cases h with
  | mk _ _ _ found found' => exact ⟨found.lastPart?_eq, found'.lastPart?_eq⟩

end Replaces

end Node

end TreeLint
