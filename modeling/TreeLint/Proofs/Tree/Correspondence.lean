import Mathlib.Data.List.Forall2
import TreeLint.Proofs.Tree.Shape
import TreeLint.Tree.Query

/-!
# Trees that answer alike

A rule asks a tree for children under a field, for parts, for what is below a node. The answers
come from kinds, names, fields and the order of the children; where a node stands in the text and
which comments stand beside it do not matter.

`Correspondence R` says what a relation between the nodes of two trees must keep for that. The
children of related nodes match one by one, up to comments put in between (`Padded`). Then every
question of `TreeLint.Tree.Query` gets related answers, one lemma for each, and the walks match
up to comments as well (`Correspondence.visit`, `Correspondence.walkWithParent`).
-/

namespace Option.Rel

variable {α β γ δ : Type} {R : α → β → Prop} {Q : γ → δ → Prop} {o : Option α} {o' : Option β}

/-- Related answers are both missing or both there. -/
theorem eq_none_or_eq_some (h : Option.Rel R o o') :
    (o = .none ∧ o' = .none) ∨ ∃ a b, o = .some a ∧ o' = .some b ∧ R a b := by
  cases h with
  | none => exact Or.inl ⟨rfl, rfl⟩
  | some hab => exact Or.inr ⟨_, _, rfl, rfl, hab⟩

theorem bind {f : α → Option γ} {g : β → Option δ} (h : Option.Rel R o o')
    (hf : ∀ a b, R a b → Option.Rel Q (f a) (g b)) : Option.Rel Q (o.bind f) (o'.bind g) := by
  cases h with
  | none => exact .none
  | some hab => exact hf _ _ hab

theorem filter {p : α → Bool} {q : β → Bool} (h : Option.Rel R o o')
    (hp : ∀ a b, R a b → q b = p a) : Option.Rel R (o.filter p) (o'.filter q) := by
  cases h with
  | none => exact .none
  | some hab =>
    rw [Option.filter_some, Option.filter_some, hp _ _ hab]
    split
    · exact .some hab
    · exact .none

theorem or {u : Option α} {u' : Option β} (h : Option.Rel R o o') (hu : Option.Rel R u u') :
    Option.Rel R (o.or u) (o'.or u') := by
  cases h with
  | none => exact hu
  | some hab => exact .some hab

theorem any_eq {p : α → Bool} {q : β → Bool} (h : Option.Rel R o o')
    (hp : ∀ a b, R a b → q b = p a) : o'.any q = o.any p := by
  cases h with
  | none => rfl
  | some hab => exact hp _ _ hab

theorem isSome_eq (h : Option.Rel R o o') : o'.isSome = o.isSome := by
  cases h <;> rfl

theorem isNone_eq (h : Option.Rel R o o') : o'.isNone = o.isNone := by
  cases h <;> rfl

end Option.Rel

namespace TreeLint

/-! ### Lists that match up to what is put in between -/

section Padded

variable {α β γ δ : Type} {R : α → β → Prop} {P : β → Prop} {xs : List α} {ys : List β}

theorem rel_head?_of_forall₂ (h : List.Forall₂ R xs ys) : Option.Rel R xs.head? ys.head? := by
  cases h with
  | nil => exact .none
  | cons head _ => exact .some head

theorem rel_getLast?_of_forall₂ (h : List.Forall₂ R xs ys) :
    Option.Rel R xs.getLast? ys.getLast? := by
  rw [← List.head?_reverse, ← List.head?_reverse]
  exact rel_head?_of_forall₂ (List.forall₂_reverse_iff.2 h)

/-- The second list has a related item for each one of the first, in the same order, and between
them items with the property `P`. -/
inductive Padded (R : α → β → Prop) (P : β → Prop) : List α → List β → Prop where
  | nil : Padded R P [] []
  | step {x : α} {y : β} {xs : List α} {ys : List β} (head : R x y) (tail : Padded R P xs ys) :
    Padded R P (x :: xs) (y :: ys)
  | pad {y : β} {xs : List α} {ys : List β} (head : P y) (tail : Padded R P xs ys) :
    Padded R P xs (y :: ys)

namespace Padded

theorem of_forall₂ (h : List.Forall₂ R xs ys) : Padded R P xs ys := by
  induction h with
  | nil => exact .nil
  | cons head _ ih => exact .step head ih

theorem append {xs' : List α} {ys' : List β} (h : Padded R P xs ys) (h' : Padded R P xs' ys') :
    Padded R P (xs ++ xs') (ys ++ ys') := by
  induction h with
  | nil => exact h'
  | step head _ ih => exact .step head ih
  | pad head _ ih => exact .pad head ih

theorem map {Q : γ → δ → Prop} {P' : δ → Prop} {f : α → γ} {g : β → δ} (h : Padded R P xs ys)
    (hR : ∀ x y, R x y → Q (f x) (g y)) (hP : ∀ y, P y → P' (g y)) :
    Padded Q P' (xs.map f) (ys.map g) := by
  induction h with
  | nil => exact .nil
  | step head _ ih => exact .step (hR _ _ head) ih
  | pad head _ ih => exact .pad (hP _ head) ih

/-- What is found item by item matches, if nothing is found in what was put in between. -/
theorem filterMap {Q : γ → δ → Prop} {f : α → Option γ} {g : β → Option δ}
    (h : Padded R P xs ys) (hR : ∀ x y, R x y → Option.Rel Q (f x) (g y))
    (hP : ∀ y, P y → g y = none) : List.Forall₂ Q (xs.filterMap f) (ys.filterMap g) := by
  induction h with
  | nil => exact .nil
  | step head _ ih =>
    obtain ⟨hf, hg⟩ | ⟨a, b, hf, hg, hab⟩ := (hR _ _ head).eq_none_or_eq_some
    · rw [List.filterMap_cons_none hf, List.filterMap_cons_none hg]
      exact ih
    · rw [List.filterMap_cons_some hf, List.filterMap_cons_some hg]
      exact .cons hab ih
  | pad head _ ih =>
    rw [List.filterMap_cons_none (hP _ head)]
    exact ih

section Filter

variable {p : α → Bool} {q : β → Bool}

theorem filter (h : Padded R P xs ys) (hR : ∀ x y, R x y → q y = p x)
    (hP : ∀ y, P y → q y = false) : List.Forall₂ R (xs.filter p) (ys.filter q) := by
  rw [← List.filterMap_eq_filter, ← List.filterMap_eq_filter]
  refine h.filterMap ?_ ?_
  · intro x y hxy
    rw [Option.guard, Option.guard, hR x y hxy]
    split
    · exact .some hxy
    · exact .none
  · intro y hy
    rw [Option.guard, hP y hy]
    rfl

theorem find? (h : Padded R P xs ys) (hR : ∀ x y, R x y → q y = p x)
    (hP : ∀ y, P y → q y = false) : Option.Rel R (xs.find? p) (ys.find? q) := by
  rw [← List.head?_filter, ← List.head?_filter]
  exact rel_head?_of_forall₂ (h.filter hR hP)

theorem any_eq (h : Padded R P xs ys) (hR : ∀ x y, R x y → q y = p x)
    (hP : ∀ y, P y → q y = false) : ys.any q = xs.any p := by
  rw [← List.isSome_find?, ← List.isSome_find?]
  exact (h.find? hR hP).isSome_eq

theorem takeWhile (h : Padded R P xs ys) (hR : ∀ x y, R x y → q y = p x)
    (hP : ∀ y, P y → q y = true) : Padded R P (xs.takeWhile p) (ys.takeWhile q) := by
  induction h with
  | nil => exact .nil
  | step head _ ih =>
    rw [List.takeWhile_cons, List.takeWhile_cons, hR _ _ head]
    split
    · exact .step head ih
    · exact .nil
  | pad head _ ih =>
    rw [List.takeWhile_cons, if_pos (hP _ head)]
    exact .pad head ih

end Filter

end Padded

end Padded

/-! ### Nodes that correspond -/

namespace Node

/-- A comment by itself: a leaf under no field. -/
structure IsAside (n : Node) : Prop where
  kind_eq : n.kind = "comment"
  field_eq : n.label.field = none
  children_eq : n.children = []

theorem IsAside.isAny_eq_false {n : Node} (h : n.IsAside) {kinds : List String}
    (hkinds : kinds.contains "comment" = false) : n.isAny kinds = false := by
  rw [isAny, h.kind_eq, hkinds]

end Node

open Node

/-- What nodes that correspond have in common. -/
structure Correspondence (R : Node → Node → Prop) : Prop where
  kind : ∀ {n n'}, R n n' → n'.kind = n.kind
  named : ∀ {n n'}, R n n' → n'.label.named = n.label.named
  field : ∀ {n n'}, R n n' → n'.label.field = n.label.field
  /-- The children match, up to comments on the second side. -/
  children : ∀ {n n'}, R n n' → Padded R IsAside n.children n'.children
  /-- The keyword of a switch statement keeps its place in front. -/
  keyword : ∀ {n n'}, R n n' → n.kind = "switch_statement" → n.children ≠ [] →
    Option.Rel R n.children.head? n'.children.head?

namespace Correspondence

variable {R : Node → Node → Prop} (c : Correspondence R) {n n' : Node}

include c

theorem isAny (h : R n n') (kinds : List String) : n'.isAny kinds = n.isAny kinds := by
  rw [Node.isAny, Node.isAny, c.kind h]

theorem isPart (h : R n n') : n'.isPart = n.isPart := by
  rw [Node.isPart, Node.isPart, c.kind h, c.named h]

theorem child? (h : R n n') (field : String) :
    Option.Rel R (n.child? field) (n'.child? field) := by
  refine (c.children h).find? ?_ ?_
  · intro a b hab
    rw [c.field hab]
  · intro b hb
    rw [hb.field_eq]
    rfl

theorem parts (h : R n n') : List.Forall₂ R n.parts n'.parts := by
  refine (c.children h).filter (fun a b hab => c.isPart hab) ?_
  intro b hb
  rw [Node.isPart, hb.kind_eq]
  exact Bool.and_false _

/-- The named children of a kind match, comments being of another kind. -/
theorem namedChildren (h : R n n') (kind : String) (hkind : kind ≠ "comment") :
    List.Forall₂ R (n.namedChildren.filter (·.kind == kind))
      (n'.namedChildren.filter (·.kind == kind)) := by
  rw [Node.namedChildren, Node.namedChildren, List.filter_filter, List.filter_filter]
  refine (c.children h).filter ?_ ?_
  · intro a b hab
    rw [c.kind hab, c.named hab]
  · intro b hb
    rw [hb.kind_eq, beq_eq_false_iff_ne.2 (Ne.symm hkind)]
    rfl

theorem firstPart? (h : R n n') : Option.Rel R n.firstPart? n'.firstPart? :=
  rel_head?_of_forall₂ (c.parts h)

theorem lastPart? (h : R n n') : Option.Rel R n.lastPart? n'.lastPart? :=
  rel_getLast?_of_forall₂ (c.parts h)

theorem unwrapped (h : R n n') : Option.Rel R n.unwrapped n'.unwrapped := by
  induction n using Node.induction generalizing n' with
  | node l cs ih =>
    rw [Node.unwrapped_eq, Node.unwrapped_eq n', c.kind h]
    split
    · obtain ⟨hf, hf'⟩ | ⟨a, b, hf, hf', hab⟩ := (c.firstPart? h).eq_none_or_eq_some
      · rw [hf, hf']
        exact .none
      · have hmem : a ∈ cs := List.mem_of_mem_filter (List.mem_of_mem_head? hf)
        rw [hf, hf']
        exact ih a hmem hab
    · exact .some h

theorem annotatedType? (h : R n n') : Option.Rel R n.annotatedType? n'.annotatedType? := by
  rw [Node.annotatedType?, Node.annotatedType?, c.kind h]
  split
  · exact c.firstPart? h
  · exact .some h

theorem typeUnder? (h : R n n') (field : String) :
    Option.Rel R (n.typeUnder? field) (n'.typeUnder? field) :=
  (c.child? h field).bind fun _ _ => c.annotatedType?

theorem isAccessorOrConstructor (h : R n n') (name : Text) :
    n'.isAccessorOrConstructor name = n.isAccessorOrConstructor name := by
  -- a comment has no field, so it does not end the search for a keyword before the name
  have hfront := (c.children h).takeWhile
    (p := fun a => a.label.field != some "name") (q := fun b => b.label.field != some "name")
    (fun a b hab => by rw [c.field hab]) (fun b hb => by rw [hb.field_eq]; rfl)
  rw [Node.isAccessorOrConstructor, Node.isAccessorOrConstructor]
  congr 1
  exact hfront.any_eq (fun a b hab => c.isAny hab _) fun b hb => hb.isAny_eq_false (by decide)

/-! ### Walks -/

/-- Agendas that match are visited alike. A comment is listed and nothing comes of it. -/
theorem visit (stop : List String) {agenda agenda' : List Node}
    (h : Padded R IsAside agenda agenda') :
    Padded R IsAside (Node.visit stop agenda) (Node.visit stop agenda') := by
  induction agenda' using Node.visit.induct stop generalizing agenda with
  | case1 =>
    cases h
    simp only [Node.visit]
    exact .nil
  | case2 b rest ih =>
    cases h with
    | step head tail =>
      rw [Node.visit, Node.visit]
      refine .step head (ih ?_)
      rw [c.isAny head]
      refine Padded.append ?_ tail
      split
      · exact .nil
      · exact c.children head
    | pad head tail =>
      rw [Node.visit.eq_2]
      refine .pad head (ih ?_)
      rw [head.children_eq, dite_eq_ite, ite_self]
      exact tail

theorem walk (h : R n n') : Padded R IsAside n.walk n'.walk :=
  c.visit [] (.step h .nil)

theorem descendants (h : R n n') (stop : List String) :
    Padded R IsAside (n.descendants stop) (n'.descendants stop) :=
  c.visit stop (c.children h)

/-- Whether a node of some kind is below does not depend on comments. -/
theorem any_descendants (h : R n n') (stop : List String) (kind : String)
    (hkind : kind ≠ "comment") :
    (n'.descendants stop).any (·.kind == kind) = (n.descendants stop).any (·.kind == kind) := by
  refine (c.descendants h stop).any_eq ?_ ?_
  · intro a b hab
    rw [c.kind hab]
  · intro b hb
    rw [hb.kind_eq]
    exact beq_eq_false_iff_ne.2 (Ne.symm hkind)

omit c in
/-- Nodes that correspond, under parents that do. -/
def WithParent (R : Node → Node → Prop) (p p' : Option Node × Node) : Prop :=
  Option.Rel R p.1 p'.1 ∧ R p.2 p'.2

theorem visitWithParent {agenda agenda' : List (Option Node × Node)}
    (h : Padded (WithParent R) (fun p => p.2.IsAside) agenda agenda') :
    Padded (WithParent R) (fun p => p.2.IsAside)
      (Node.visitWithParent agenda) (Node.visitWithParent agenda') := by
  induction agenda' using Node.visitWithParent.induct generalizing agenda with
  | case1 =>
    cases h
    simp only [Node.visitWithParent]
    exact .nil
  | case2 parent b rest ih =>
    cases h with
    | step head tail =>
      rename_i p agenda
      rw [Node.visitWithParent, Node.visitWithParent]
      refine .step head (ih (Padded.append ?_ tail))
      refine (c.children head.2).map ?_ ?_
      · intro x y hxy
        exact ⟨.some head.2, hxy⟩
      · intro y hy
        exact hy
    | pad head tail =>
      rw [Node.visitWithParent.eq_2]
      refine .pad head (ih ?_)
      rw [head.children_eq]
      exact tail

theorem walkWithParent (h : R n n') :
    Padded (WithParent R) (fun p => p.2.IsAside) n.walkWithParent n'.walkWithParent :=
  c.visitWithParent (.step ⟨.none, h⟩ .nil)

end Correspondence

end TreeLint
