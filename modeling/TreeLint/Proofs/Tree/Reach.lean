import Mathlib.Data.List.Forall2
import TreeLint.Proofs.Tree.Shape

/-!
# What a search below a node comes upon

`Node.descendants` works off an agenda and does not enter nodes of certain kinds. Which nodes it
lists is a condition on paths: `Node.Reaches` says that one node is below another with no node of
these kinds strictly between them. The search lists what is reached and nothing else
(`mem_descendants_iff`), and what stands below the nodes not entered does not matter to it: two
lists of trees that agree outside of these nodes (`Node.AgreesOutside`) are searched alike
(`AgreesOutside.visit`).
-/

namespace TreeLint

namespace Node

/-- A node is below another one, and no node strictly between them is of one of the kinds. -/
inductive Reaches (stop : List String) : Node → Node → Prop where
  | child {n c : Node} (mem : c ∈ n.children) : Reaches stop n c
  | deeper {n c d : Node} (mem : c ∈ n.children) (entered : c.isAny stop = false)
    (rest : Reaches stop c d) : Reaches stop n d

variable {stop : List String} {n d : Node}

theorem reaches_iff : n.Reaches stop d ↔
    ∃ c ∈ n.children, d = c ∨ c.isAny stop = false ∧ c.Reaches stop d := by
  constructor
  · intro h
    cases h with
    | child mem => exact ⟨d, mem, Or.inl rfl⟩
    | deeper mem entered rest => exact ⟨_, mem, Or.inr ⟨entered, rest⟩⟩
  · rintro ⟨c, mem, rfl | ⟨entered, rest⟩⟩
    · exact .child mem
    · exact .deeper mem entered rest

/-- A search that enters more nodes reaches more. -/
theorem Reaches.enter_all (h : n.Reaches stop d) : n.Reaches [] d := by
  induction h with
  | child mem => exact .child mem
  | deeper mem _ _ ih => exact .deeper mem rfl ih

/-- The search through an agenda lists its nodes and what is reached from those it enters. -/
theorem mem_visit_iff {agenda : List Node} : d ∈ visit stop agenda ↔
    ∃ n ∈ agenda, d = n ∨ n.isAny stop = false ∧ n.Reaches stop d := by
  induction agenda using visit.induct stop with
  | case1 => simp [visit]
  | case2 n rest ih =>
    rw [dite_eq_ite] at ih
    rw [visit, List.mem_cons, ih, List.exists_mem_cons_iff]
    simp only [List.mem_append, or_and_right, exists_or, ← or_assoc]
    refine or_congr_left (or_congr_right ?_)
    -- what is reached from a node that is entered is found among its children
    by_cases hstop : n.isAny stop = true
    · simp [hstop]
    · rw [if_neg hstop, ← reaches_iff, and_iff_right (Bool.eq_false_iff.2 hstop)]

/-- **What a search lists.** -/
theorem mem_descendants_iff : d ∈ n.descendants stop ↔ n.Reaches stop d := by
  rw [descendants, mem_visit_iff, reaches_iff]

theorem any_descendants_iff {kind : String} :
    (n.descendants stop).any (·.kind == kind) = true ↔ ∃ d, n.Reaches stop d ∧ d.kind = kind := by
  simp only [List.any_eq_true, mem_descendants_iff, beq_iff_eq]

instance {kind : String} : Decidable (∃ d, n.Reaches stop d ∧ d.kind = kind) :=
  decidable_of_iff _ any_descendants_iff

/-! ### Nodes that are not entered -/

/-- Two trees that are equal but for what stands below nodes of certain kinds. -/
inductive AgreesOutside (stop : List String) : Node → Node → Prop where
  | closed {l : Label} {cs cs' : List Node} (kind : stop.contains l.kind = true) :
    AgreesOutside stop (.mk l cs) (.mk l cs')
  | entered {l : Label} {cs cs' : List Node}
    (children : List.Forall₂ (AgreesOutside stop) cs cs') :
    AgreesOutside stop (.mk l cs) (.mk l cs')

namespace AgreesOutside

variable {n' : Node}

theorem label_eq (h : n.AgreesOutside stop n') : n'.label = n.label := by
  cases h <;> rfl

/-- What a search goes on with agrees. -/
theorem next (h : n.AgreesOutside stop n') :
    List.Forall₂ (AgreesOutside stop) (if n.isAny stop then [] else n.children)
      (if n'.isAny stop then [] else n'.children) := by
  have hkind : n'.isAny stop = n.isAny stop := by
    rw [isAny, isAny, kind, kind, h.label_eq]
  rw [hkind]
  split
  · exact .nil
  · rename_i hstop
    cases h with
    | closed kind => exact absurd kind hstop
    | entered children => exact children

/-- Trees that agree outside of the nodes that are not entered are searched alike. -/
theorem visit {agenda agenda' : List Node}
    (h : List.Forall₂ (AgreesOutside stop) agenda agenda') :
    List.Forall₂ (AgreesOutside stop) (Node.visit stop agenda) (Node.visit stop agenda') := by
  induction agenda using Node.visit.induct stop generalizing agenda' with
  | case1 =>
    cases h
    simp only [Node.visit]
    exact .nil
  | case2 n rest ih =>
    cases h with
    | cons head tail =>
      rw [Node.visit, Node.visit]
      exact .cons head (ih (List.rel_append head.next tail))

theorem any_kind_eq {ns ns' : List Node} (h : List.Forall₂ (AgreesOutside stop) ns ns')
    (kind : String) : ns'.any (·.kind == kind) = ns.any (·.kind == kind) := by
  induction h with
  | nil => rfl
  | cons head _ ih => rw [List.any_cons, List.any_cons, ih, Node.kind, Node.kind, head.label_eq]

end AgreesOutside

end Node

end TreeLint
