import Mathlib.Data.List.TakeWhile
import TreeLint.Text.Basic

/-!
# Occurrences and segments

What the operations on texts say in the words of lists: `Text.holds` finds infixes (`holds_iff`),
`Text.split` gives the segments between separators (`split_eq_splitOn`), and `Text.afterLast` is
the offset at which the last of them starts (`drop_afterLast`). A text that has a separator keeps
its last segment when something is put in front of it (`afterLast_append`).
-/

namespace TreeLint

namespace Text

/-- A text occurs in another exactly if it is an infix. -/
theorem holds_iff {needle t : Text} : holds needle t = true ↔ needle <:+: t := by
  induction t with
  | nil => simp [holds]
  | cons c rest ih =>
    rw [holds, Bool.or_eq_true, ih, List.isPrefixOf_iff_prefix, List.infix_cons_iff]

theorem split_eq_splitOn (sep : Char) (t : Text) : split sep t = t.splitOn sep := by
  induction t with
  | nil => rfl
  | cons c rest ih =>
    rw [split, List.splitOn_cons_eq_if_modifyHead, ih]
    by_cases h : c = sep
    · rw [if_pos h, if_pos (beq_iff_eq.2 h)]
    · rw [if_neg h, if_neg (by simpa using h)]
      cases hsegs : rest.splitOn sep with
      | nil => exact absurd hsegs (List.splitOn_ne_nil sep rest)
      | cons seg segs => rfl

/-- No segment has a separator in it. -/
theorem not_mem_of_mem_split {sep : Char} {t segment : Text} (h : segment ∈ split sep t) :
    sep ∉ segment := by
  induction t generalizing segment with
  | nil =>
    rw [List.mem_singleton.1 h]
    exact List.not_mem_nil
  | cons c rest ih =>
    rw [split] at h
    split at h
    · rcases List.mem_cons.1 h with rfl | hin
      · exact List.not_mem_nil
      · exact ih hin
    · rename_i hc
      cases hsegs : split sep rest with
      | nil => exact absurd hsegs (split_ne_nil sep rest)
      | cons first segs =>
        rw [hsegs] at h ih
        rcases List.mem_cons.1 h with rfl | hin
        · exact List.not_mem_cons_of_ne_of_not_mem (Ne.symm hc) (ih List.mem_cons_self)
        · exact ih (List.mem_cons_of_mem first hin)

/-- What stands behind the last separator. -/
def lastSegment (sep : Char) (t : Text) : Text :=
  (t.splitOn sep).getLast (List.splitOn_ne_nil sep t)

section

variable {sep : Char} {t u : Text}

theorem exists_last_separator (h : sep ∈ t) : ∃ s u, t = s ++ sep :: u ∧ sep ∉ u := by
  obtain ⟨u, s, heq, hu⟩ := List.eq_append_cons_of_mem (List.mem_reverse.2 h)
  refine ⟨s.reverse, u.reverse, ?_, by simpa using hu⟩
  rw [← List.reverse_reverse t, heq]
  simp

theorem forall_ne_of_not_mem (h : sep ∉ t) : ∀ c ∈ t.reverse, (c != sep) = true := by
  intro c hc
  rw [bne_iff_ne]
  rintro rfl
  exact h (List.mem_reverse.1 hc)

theorem afterLast_of_not_mem (h : sep ∉ t) : afterLast sep t = 0 := by
  rw [afterLast, List.takeWhile_eq_self_iff.2 (forall_ne_of_not_mem h), List.length_reverse,
    Nat.sub_self]

theorem afterLast_append_cons (s : Text) (h : sep ∉ u) :
    afterLast sep (s ++ sep :: u) = s.length + 1 := by
  have hback : (s ++ sep :: u).reverse.takeWhile (· != sep) = u.reverse := by
    rw [List.reverse_append, List.reverse_cons, List.append_assoc,
      List.takeWhile_append_of_pos (forall_ne_of_not_mem h)]
    simp
  rw [afterLast, hback, List.length_append, List.length_cons, List.length_reverse]
  omega

theorem afterLast_pos (h : sep ∈ t) : 0 < afterLast sep t := by
  obtain ⟨s, u, rfl, hu⟩ := exists_last_separator h
  rw [afterLast_append_cons s hu]
  exact Nat.succ_pos _

theorem lastSegment_of_not_mem (h : sep ∉ t) : lastSegment sep t = t := by
  simp only [lastSegment, List.splitOn_eq_singleton h, List.getLast_singleton]

theorem lastSegment_append_cons (s : Text) (h : sep ∉ u) :
    lastSegment sep (s ++ sep :: u) = u := by
  simp only [lastSegment, List.splitOn_append_cons_self, List.splitOn_eq_singleton h,
    List.getLast_concat]

/-- **The last segment is what stands behind the last separator.** -/
theorem drop_afterLast (sep : Char) (t : Text) :
    t.drop (afterLast sep t) = lastSegment sep t := by
  by_cases h : sep ∈ t
  · obtain ⟨s, u, rfl, hu⟩ := exists_last_separator h
    rw [afterLast_append_cons s hu, lastSegment_append_cons s hu]
    simp
  · rw [afterLast_of_not_mem h, lastSegment_of_not_mem h, List.drop_zero]

theorem afterLast_append (s : Text) (h : sep ∈ t) :
    afterLast sep (s ++ t) = s.length + afterLast sep t := by
  obtain ⟨front, u, rfl, hu⟩ := exists_last_separator h
  rw [← List.append_assoc, afterLast_append_cons _ hu, afterLast_append_cons _ hu,
    List.length_append]
  omega

end

end Text

end TreeLint
