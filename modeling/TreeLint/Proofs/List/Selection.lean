import Mathlib.Data.List.Basic

/-!
# Selected items of a list

Which items of a list a computation keeps, and in which order, is said by their places: the list
of places holds every place with a property and no other (`ListsPlaces.mem_iff`), in a given order
(`ListsPlaces.ordered`). Items that are equal stay apart in this way. `pick` gives the items at a
list of places.

Items of which nothing comes may be left out before a list is worked through
(`flatMap_filter_eq`).
-/

namespace TreeLint

/-- The list of the places that have a property, in an order. -/
structure ListsPlaces (P : Nat → Prop) (before : Nat → Nat → Prop) (places : List Nat) : Prop where
  mem_iff : ∀ i, i ∈ places ↔ P i
  ordered : places.Pairwise before

/-- The items at a list of places. -/
def pick {α : Type} (xs : List α) (places : List Nat) : List α := places.filterMap (xs[·]?)

namespace ListsPlaces

variable {P Q : Nat → Prop} {places : List Nat}

/-- Ascending places behind a first item that has not the property. -/
theorem succ (h : ListsPlaces Q (· < ·) places) (hsucc : ∀ i, P (i + 1) ↔ Q i) (hzero : ¬P 0) :
    ListsPlaces P (· < ·) (places.map (· + 1)) where
  mem_iff i := by
    cases i with
    | zero => simp [hzero]
    | succ i => simp [hsucc, h.mem_iff]
  ordered := by
    rw [List.pairwise_map]
    exact h.ordered.imp Nat.succ_lt_succ

/-- Ascending places behind a first item that has the property. -/
theorem zero_succ (h : ListsPlaces Q (· < ·) places) (hsucc : ∀ i, P (i + 1) ↔ Q i) (hzero : P 0) :
    ListsPlaces P (· < ·) (0 :: places.map (· + 1)) where
  mem_iff i := by
    cases i with
    | zero => simp [hzero]
    | succ i => simp [hsucc, h.mem_iff]
  ordered := by
    rw [List.pairwise_cons, List.pairwise_map]
    refine ⟨?_, h.ordered.imp Nat.succ_lt_succ⟩
    intro i hi
    obtain ⟨j, -, rfl⟩ := List.mem_map.1 hi
    exact Nat.succ_pos j

end ListsPlaces

section

variable {α β : Type} {xs : List α} {places : List Nat}

theorem mem_pick {x : α} : x ∈ pick xs places ↔ ∃ i ∈ places, xs[i]? = some x :=
  List.mem_filterMap

theorem pick_map (f : α → β) : pick (xs.map f) places = (pick xs places).map f := by
  simp [pick, List.map_filterMap]

/-- Behind a first item all places are greater by one. -/
theorem pick_cons_succ (x : α) : pick (x :: xs) (places.map (· + 1)) = pick xs places := by
  simp [pick, List.filterMap_map]

theorem pick_flatMap {γ : Type} (keys : List γ) (group : γ → List Nat) :
    pick xs (keys.flatMap group) = keys.flatMap fun k => pick xs (group k) := by
  simp [pick, List.filterMap_flatMap]

/-- Nothing is lost if all places are in the list. -/
theorem length_pick (h : ∀ i ∈ places, i < xs.length) :
    (pick xs places).length = places.length := by
  induction places with
  | nil => rfl
  | cons i places ih =>
    have hi := List.getElem?_eq_getElem (h i List.mem_cons_self)
    have hrest := ih fun j hj => h j (List.mem_cons_of_mem i hj)
    rw [pick, List.filterMap_cons_some hi, List.length_cons, List.length_cons]
    exact congrArg (· + 1) hrest

/-- The items that pass a test are picked by their places. -/
theorem filter_eq_pick (p : α → Bool) : xs.filter p = pick xs (xs.findIdxs p) := by
  induction xs with
  | nil => rfl
  | cons x xs ih =>
    have hrest : pick (x :: xs) (xs.findIdxs p (0 + 1)) = xs.filter p := by
      rw [List.findIdxs_start, pick_cons_succ, ih]
    rw [List.filter_cons, List.findIdxs_cons]
    by_cases hx : p x = true
    · rw [if_pos hx, if_pos hx]
      show _ = x :: pick (x :: xs) (xs.findIdxs p (0 + 1))
      rw [hrest]
    · rw [if_neg hx, if_neg hx, hrest]

/-- What comes of a list comes of the items that pass a test, if nothing comes of the others. -/
theorem flatMap_filter_eq {p : α → Bool} {f g : α → List β}
    (hpass : ∀ x ∈ xs, p x = true → f x = g x) (hfail : ∀ x ∈ xs, p x = false → f x = []) :
    (xs.filter p).flatMap g = xs.flatMap f := by
  induction xs with
  | nil => rfl
  | cons x xs ih =>
    have hrest := ih (fun y hy => hpass y (List.mem_cons_of_mem x hy))
      fun y hy => hfail y (List.mem_cons_of_mem x hy)
    rw [List.filter_cons, List.flatMap_cons, ← hrest]
    by_cases hp : p x = true
    · rw [if_pos hp, List.flatMap_cons, hpass x List.mem_cons_self hp]
    · rw [if_neg hp, hfail x List.mem_cons_self (by simpa using hp), List.nil_append]

/-- A stronger test leaves a sublist, also of what is made of the items. -/
theorem filterMap_filter_sublist {p q : α → Prop} [DecidablePred p] [DecidablePred q]
    (h : ∀ x, p x → q x) (f : α → Option β) :
    ((xs.filter (p ·)).filterMap f).Sublist ((xs.filter (q ·)).filterMap f) := by
  refine List.Sublist.filterMap f (List.monotone_filter_right xs ?_)
  intro x hx
  exact decide_eq_true (h x (of_decide_eq_true hx))

theorem flatMap_filter_of_nil {p : α → Bool} {f : α → List β}
    (h : ∀ x ∈ xs, p x = false → f x = []) : (xs.filter p).flatMap f = xs.flatMap f :=
  flatMap_filter_eq (fun _ _ _ => rfl) h

end

end TreeLint
