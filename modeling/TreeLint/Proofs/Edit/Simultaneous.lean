import Mathlib.Data.List.Basic
import TreeLint.Proofs.Edit.Conflict

/-!
# Edits applied at once

Edits are applied one after another to one text, from the last to the first. Nothing of that shows
in the result: it is the text that comes out when all edits replace their ranges at once. Two
descriptions of it are shown to agree, both in the offsets of the text before any edit:

* `Edit.splice` goes from edit to edit: the text up to the first one, its new text, the text
  between it and the next one, and so on to the end;
* `Edit.rewrittenAt` goes from offset to offset: the new texts that start at an offset are put
  there, and the character of the offset follows unless an edit covers it. So every character
  outside the edits is there once, and in its order.

`splice_eq_flatMap` relates the two, and `applyAll_simultaneous` says that this is what applying a
valid set of edits gives.
-/

namespace TreeLint

namespace Edit

/-! ### Offset by offset -/

/-- Whether an edit starts at an offset. -/
def startsAt (o : Nat) (e : Edit) : Bool := decide (e.start = o)

/-- Whether an edit takes the character at an offset away. -/
def covers (o : Nat) (e : Edit) : Bool := decide (e.start ≤ o ∧ o < e.stop)

/-- What becomes of the character at an offset: the new texts that start there stand in front of
it, and it is kept unless an edit covers it. The end of the text is an offset as well. -/
def rewrittenAt (t : Text) (edits : List Edit) (o : Nat) : Text :=
  (edits.filter (startsAt o)).flatMap newText ++ if edits.any (covers o) then [] else t[o]?.toList

theorem startsAt_iff {e : Edit} {o : Nat} : e.startsAt o = true ↔ e.start = o := by
  simp [startsAt]

theorem covers_iff {e : Edit} {o : Nat} : e.covers o = true ↔ e.start ≤ o ∧ (o : Int) < e.stop := by
  simp [covers]

variable {t : Text} {e : Edit} {edits rest : List Edit} {o : Nat}

theorem filter_startsAt_of_lt (h : ∀ x ∈ edits, (o : Int) < x.start) :
    edits.filter (startsAt o) = [] := by
  rw [List.filter_eq_nil_iff]
  intro x hx
  have := h x hx
  rw [startsAt_iff]
  omega

/-- Before the first edit all is kept. -/
theorem rewrittenAt_of_lt (h : ∀ x ∈ edits, (o : Int) < x.start) :
    rewrittenAt t edits o = t[o]?.toList := by
  have hkept : edits.any (covers o) = false := by
    rw [List.any_eq_false]
    intro x hx
    have := h x hx
    rw [covers_iff]
    omega
  rw [rewrittenAt, filter_startsAt_of_lt h, hkept]
  rfl

/-- Behind an edit only the others count. -/
theorem rewrittenAt_cons_of_lt (hlt : e.start < o) (hle : e.stop ≤ o) :
    rewrittenAt t (e :: rest) o = rewrittenAt t rest o := by
  have hstarts : ¬e.startsAt o = true := by
    rw [startsAt_iff]
    omega
  have hcovers : e.covers o = false := by
    rw [← Bool.not_eq_true, covers_iff]
    omega
  rw [rewrittenAt, List.filter_cons_of_neg hstarts, List.any_cons, hcovers, Bool.false_or,
    ← rewrittenAt]

/-- An insertion stands in front of all that later edits do at its offset. -/
theorem rewrittenAt_cons_of_insertion (hstart : e.start = o) (hstop : e.stop = o) :
    rewrittenAt t (e :: rest) o = e.newText ++ rewrittenAt t rest o := by
  have hcovers : e.covers o = false := by
    rw [← Bool.not_eq_true, covers_iff]
    omega
  rw [rewrittenAt, List.filter_cons_of_pos (startsAt_iff.2 hstart), List.any_cons, hcovers,
    Bool.false_or, List.flatMap_cons, List.append_assoc, ← rewrittenAt]

/-- In the range of an edit there is its new text at the start, and nothing else. -/
theorem rewrittenAt_cons_of_covers (h : e.covers o = true)
    (hrest : ∀ x ∈ rest, (o : Int) < x.start) :
    rewrittenAt t (e :: rest) o = if e.start = o then e.newText else [] := by
  rw [rewrittenAt, List.any_cons, h, Bool.true_or, if_pos rfl, List.append_nil, List.filter_cons,
    filter_startsAt_of_lt hrest]
  by_cases hstart : e.start = o
  · rw [if_pos (startsAt_iff.2 hstart), if_pos hstart, List.flatMap_cons, List.flatMap_nil,
      List.append_nil]
  · rw [if_neg (mt startsAt_iff.1 hstart), if_neg hstart, List.flatMap_nil]

/-! ### From edit to edit -/

/-- A stretch before the first edit is kept as it is. -/
theorem flatMap_rewrittenAt_before (i k : Nat) (h : ∀ x ∈ edits, (i + k : Int) ≤ x.start) :
    (List.range' i k).flatMap (rewrittenAt t edits) = t.slice i (i + k) := by
  induction k generalizing i with
  | zero =>
    rw [List.range'_zero, List.flatMap_nil, Text.slice]
    simp
  | succ k ih =>
    have hhead : rewrittenAt t edits i = t[i]?.toList := by
      apply rewrittenAt_of_lt
      intro x hx
      have := h x hx
      omega
    have htail : (List.range' (i + 1) k).flatMap (rewrittenAt t edits) =
        t.slice (i + 1) (i + 1 + k) := by
      apply ih
      intro x hx
      have := h x hx
      omega
    rw [List.range'_succ, List.flatMap_cons, hhead, htail, ← Text.slice_succ,
      Text.slice_append_of_le t (by omega) (by omega), show i + 1 + k = i + (k + 1) from by omega]

/-- Offsets that an edit covers leave nothing, behind its start. -/
theorem flatMap_rewrittenAt_inside (i k : Nat) (hlt : e.start < i) (hle : (i + k : Int) ≤ e.stop)
    (hrest : ∀ x ∈ rest, e.stop ≤ x.start) :
    (List.range' i k).flatMap (rewrittenAt t (e :: rest)) = [] := by
  rw [List.flatMap_eq_nil_iff]
  intro o ho
  rw [List.mem_range'_1] at ho
  rw [rewrittenAt_cons_of_covers (covers_iff.2 (by omega)), if_neg (by omega)]
  intro x hx
  have := hrest x hx
  omega

/-- Behind an edit the offsets give what they give without it. -/
theorem flatMap_rewrittenAt_behind (i k : Nat) (hlt : e.start < i) (hle : e.stop ≤ i) :
    (List.range' i k).flatMap (rewrittenAt t (e :: rest)) =
      (List.range' i k).flatMap (rewrittenAt t rest) := by
  apply List.flatMap_congr
  intro o ho
  rw [List.mem_range'_1] at ho
  exact rewrittenAt_cons_of_lt (by omega) (by omega)

/-- From the start of an edit on there is its new text, and then what the later edits give from
its end on. -/
theorem flatMap_rewrittenAt_from {a b : Nat} (ha : e.start = a) (hb : e.stop = b) (hab : a ≤ b)
    (k : Nat) (hrest : ∀ x ∈ rest, e.stop ≤ x.start) :
    (List.range' a (b - a + (k + 1))).flatMap (rewrittenAt t (e :: rest)) =
      e.newText ++ (List.range' b (k + 1)).flatMap (rewrittenAt t rest) := by
  rcases Nat.eq_or_lt_of_le hab with rfl | hlt
  · -- an insertion: the later edits may start at the same offset
    rw [Nat.sub_self, Nat.zero_add, List.range'_succ, List.flatMap_cons, List.flatMap_cons,
      rewrittenAt_cons_of_insertion ha hb, flatMap_rewrittenAt_behind _ _ (by omega) (by omega),
      List.append_assoc]
  · -- a replacement: the new text at the first offset, then nothing up to the end
    have hfirst : rewrittenAt t (e :: rest) a = e.newText := by
      rw [rewrittenAt_cons_of_covers (covers_iff.2 (by omega)), if_pos ha]
      intro x hx
      have := hrest x hx
      omega
    have hinside : (List.range' (a + 1) (b - a - 1)).flatMap (rewrittenAt t (e :: rest)) = [] :=
      flatMap_rewrittenAt_inside _ _ (by omega) (by omega) hrest
    have hparts : List.range' a (b - a + (k + 1)) =
        a :: (List.range' (a + 1) (b - a - 1) ++ List.range' b (k + 1)) := by
      rw [show b - a + (k + 1) = b - a - 1 + (k + 1) + 1 from by omega, List.range'_succ,
        ← List.range'_append_1, show a + 1 + (b - a - 1) = b from by omega]
    rw [hparts, List.flatMap_cons, List.flatMap_append, hfirst, hinside, List.nil_append,
      flatMap_rewrittenAt_behind _ _ (by omega) (by omega)]

/-- **Going from edit to edit is going from offset to offset.** -/
theorem splice_eq_flatMap {ordered : List Edit} (hfit : ∀ e ∈ ordered, e.fits t.length = true)
    (hord : ordered.Pairwise fun a b => a.stop ≤ b.start) (i : Nat)
    (hi : ∀ e ∈ ordered, (i : Int) ≤ e.start) (hlen : i ≤ t.length) :
    splice t i ordered =
      (List.range' i (t.length - i + 1)).flatMap (rewrittenAt t ordered) := by
  induction ordered generalizing i with
  | nil =>
    have hkept : (List.range' i (t.length - i + 1)).flatMap (rewrittenAt t []) =
        t.slice i (i + (t.length - i + 1)) := flatMap_rewrittenAt_before _ _ (by simp)
    rw [splice, hkept, Text.slice, List.take_of_length_le (by omega)]
  | cons e rest ih =>
    obtain ⟨hnonneg, hle, hstop⟩ := fits_iff.1 (hfit e List.mem_cons_self)
    have hie := hi e List.mem_cons_self
    have hrest : ∀ x ∈ rest, e.stop ≤ x.start := fun x hx => List.rel_of_pairwise_cons hord hx
    have htail := ih (fun x hx => hfit x (List.mem_cons_of_mem _ hx)) hord.of_cons e.stop.toNat
      (by
        intro x hx
        have := hrest x hx
        omega)
      (by omega)
    have hbefore : (List.range' i (e.start.toNat - i)).flatMap (rewrittenAt t (e :: rest)) =
        t.slice i e.start.toNat := by
      rw [flatMap_rewrittenAt_before, show i + (e.start.toNat - i) = e.start.toNat from by omega]
      intro x hx
      rcases List.mem_cons.1 hx with rfl | hx
      · omega
      · have := hrest x hx
        omega
    have hparts : List.range' i (t.length - i + 1) =
        List.range' i (e.start.toNat - i) ++ List.range' e.start.toNat
          (e.stop.toNat - e.start.toNat + (t.length - e.stop.toNat + 1)) := by
      rw [show e.stop.toNat - e.start.toNat + (t.length - e.stop.toNat + 1) =
          t.length - e.start.toNat + 1 from by omega,
        show t.length - i + 1 = e.start.toNat - i + (t.length - e.start.toNat + 1) from by omega,
        ← List.range'_append_1, show i + (e.start.toNat - i) = e.start.toNat from by omega]
    rw [splice, hparts, List.flatMap_append, hbefore,
      flatMap_rewrittenAt_from (by omega) (by omega) (by omega) _ hrest, htail, List.append_assoc]

/-- Arranged edits, proposed in any order, replace their ranges where they stand. -/
theorem Arranged.applyAll_eq {ordered : List Edit} (h : Arranged t.length ordered)
    (hperm : ordered.Perm edits) : applyAll t edits = .ok (splice t 0 ordered) := by
  have hzero : ∀ e ∈ ordered, ((0 : Nat) : Int) ≤ e.start := by
    intro e he
    have := fits_iff.1 (h.fits e he)
    omega
  rw [applyAll, validate_eq_ok_iff.2 ⟨h, hperm⟩, Except.map,
    replaceAll_eq_splice h.fits h.stop_le_start 0 hzero, List.take_zero, List.nil_append]

/-- **A valid set of edits is applied at once.** The result is the text before the first edit, its
new text, the text between it and the second one, and so on up to the text behind the last one, all
in the offsets of the original text. Offset by offset, each new text stands where its edit starts,
and each character that no edit covers is kept, in order and once. -/
theorem applyAll_simultaneous {ordered : List Edit} (h : validate t edits = .ok ordered) :
    applyAll t edits = .ok (splice t 0 ordered) ∧
      splice t 0 ordered = (List.range (t.length + 1)).flatMap (rewrittenAt t ordered) := by
  obtain ⟨harranged, hperm⟩ := validate_eq_ok_iff.1 h
  refine ⟨harranged.applyAll_eq hperm, ?_⟩
  rw [splice_eq_flatMap harranged.fits harranged.stop_le_start 0 _ (Nat.zero_le _), Nat.sub_zero,
    List.range_eq_range']
  intro e he
  have := fits_iff.1 (harranged.fits e he)
  omega

/-- The touching edits in order. -/
def touchingInOrder : List Edit :=
  [⟨0, 2, [], ""⟩, ⟨2, 2, "v".toList, ""⟩, ⟨2, 4, "XYZ".toList, ""⟩, ⟨4, 4, "w".toList, ""⟩]

theorem validate_touchingEdits :
    validate "abcdef".toList touchingEdits = .ok touchingInOrder :=
  validate_eq_ok_iff.2 ⟨⟨by decide, by decide⟩, by decide⟩

/-- A deletion, an insertion, a replacement from the same offset on and another insertion right
behind it, applied at once. -/
theorem touchingEdits_applied :
    validate "abcdef".toList touchingEdits = .ok touchingInOrder ∧
      applyAll "abcdef".toList touchingEdits = .ok "vXYZwef".toList ∧
      "vXYZwef".toList =
        (List.range 7).flatMap (rewrittenAt "abcdef".toList touchingInOrder) := by
  obtain ⟨happly, hoffsets⟩ := applyAll_simultaneous validate_touchingEdits
  have hresult : splice "abcdef".toList 0 touchingInOrder = "vXYZwef".toList := by decide
  rw [hresult] at happly hoffsets
  exact ⟨validate_touchingEdits, happly, hoffsets⟩

end Edit

end TreeLint
