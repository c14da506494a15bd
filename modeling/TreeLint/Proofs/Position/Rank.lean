import Mathlib.Data.List.GetD
import Mathlib.Data.Nat.Basic
import Mathlib.Order.Bounds.Defs
import TreeLint.Position

/-!
# Ranks in a table

The tables of a text are searched for the last entry up to a number. A rank says how many entries
to go from the front; in an ascending table these are all entries up to the number:

* `lt_rank_iff` — an entry is counted exactly when it is at most the number;
* `rank_eq_countP` — so the rank is the number of such entries;
* `isGreatest_getD_rank` — and the last one counted is the greatest of them.
-/

namespace TreeLint

theorem rank_le_length (table : List Nat) (x : Nat) : rank table x ≤ table.length :=
  (List.takeWhile_prefix _).length_le

theorem rank_cons {a x : Nat} (table : List Nat) :
    rank (a :: table) x = if a ≤ x then rank table x + 1 else 0 := by
  simp only [rank, List.takeWhile_cons, decide_eq_true_eq]
  split <;> rfl

theorem rank_mono (table : List Nat) {x y : Nat} (h : x ≤ y) : rank table x ≤ rank table y := by
  induction table with
  | nil => exact Nat.le_refl _
  | cons a table ih =>
    rw [rank_cons, rank_cons]
    by_cases hx : a ≤ x
    · rw [if_pos hx, if_pos (Nat.le_trans hx h)]
      omega
    · rw [if_neg hx]
      exact Nat.zero_le _

/-- The last entry that a rank counts is at most the number it was asked for. -/
theorem getD_rank_le {table : List Nat} {x : Nat} (h : 0 < rank table x) :
    table.getD (rank table x - 1) 0 ≤ x := by
  induction table with
  | nil => cases h
  | cons a table ih =>
    rw [rank_cons] at h ⊢
    split at h
    · rename_i ha
      rw [if_pos ha, Nat.add_sub_cancel]
      cases hr : rank table x with
      | zero => exact ha
      | succ r =>
        rw [hr] at ih
        exact ih (Nat.succ_pos r)
    · cases h

/-! ### Ascending tables -/

section Ascending

variable {table : List Nat}

/-- An ascending table is searched by its entries. -/
theorem lt_rank_iff (h : table.Pairwise (· < ·)) {i x : Nat} (hi : i < table.length) :
    i < rank table x ↔ table[i] ≤ x := by
  induction table generalizing i with
  | nil => cases hi
  | cons a table ih =>
    obtain ⟨hlater, htable⟩ := List.pairwise_cons.1 h
    rw [rank_cons]
    cases i with
    | zero => by_cases ha : a ≤ x <;> simp [ha]
    | succ i =>
      have hi' : i < table.length := Nat.lt_of_succ_lt_succ hi
      have hnext := ih htable hi'
      have habove := hlater _ (List.getElem_mem hi')
      rw [List.getElem_cons_succ]
      split <;> omega

theorem rank_eq_countP (h : table.Pairwise (· < ·)) (x : Nat) :
    rank table x = table.countP (· ≤ x) := by
  induction table with
  | nil => rfl
  | cons a table ih =>
    obtain ⟨hlater, htable⟩ := List.pairwise_cons.1 h
    rw [rank_cons, List.countP_cons, ih htable]
    by_cases ha : a ≤ x
    · simp [ha]
    · have hnone : table.countP (· ≤ x) = 0 := by
        rw [List.countP_eq_zero]
        intro b hb
        have := hlater b hb
        simp only [decide_eq_true_eq]
        omega
      simp [ha, hnone]

/-- The last entry that a rank counts is the greatest one up to the number it was asked for. -/
theorem isGreatest_getD_rank (h : table.Pairwise (· < ·)) {x : Nat} (hpos : 0 < rank table x) :
    IsGreatest {p | p ∈ table ∧ p ≤ x} (table.getD (rank table x - 1) 0) := by
  have hlen := rank_le_length table x
  have hlast : rank table x - 1 < table.length := by omega
  rw [List.getD_eq_getElem _ _ hlast]
  refine ⟨⟨List.getElem_mem hlast, (lt_rank_iff h hlast).1 (by omega)⟩, ?_⟩
  rintro p ⟨hp, hle⟩
  obtain ⟨i, hi, rfl⟩ := List.getElem_of_mem hp
  have hbefore := (lt_rank_iff h hi).2 hle
  rcases Nat.eq_or_lt_of_le (Nat.le_sub_one_of_lt hbefore) with rfl | hlt
  · exact Nat.le_refl _
  · exact Nat.le_of_lt (List.pairwise_iff_getElem.1 h i _ hi hlast hlt)

end Ascending

end TreeLint
