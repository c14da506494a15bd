import TreeLint.Proofs.Edit.Conflict

/-!
# Edits listed in another order

The edits of a set may be proposed in any order. Sorting looks at the ranges of the edits only and
keeps two edits of one range in the order in which they came, so two lists of the same edits need
not be sorted into the same list. What can be seen of them is the same nevertheless:

* `map_span_mergeSort` — the ranges come in the same order;
* `find?_unfit_span`, `firstMeeting_span` — both checks look at ranges only, so they come to the
  same verdict, and name edits of the same ranges;
* `report_validate_of_perm` — a refusal reads the same, and if nothing is refused then no two edits
  share their range, so that the sorted lists are equal after all.

`applyAll_of_perm` says this of applying the edits.
-/

namespace TreeLint

/-- What is told about a refused set of edits: the kind of the error, and the wording. -/
def EditError.report (e : EditError) : EditErrorKind × String := (e.kind, e.message)

namespace Edit

/-! ### Ranges -/

/-- The offsets between which an edit replaces. -/
def span (e : Edit) : Int × Int := (e.start, e.stop)

theorem span_eq_iff {a b : Edit} : a.span = b.span ↔ a.start = b.start ∧ a.stop = b.stop :=
  Prod.mk.injEq _ _ _ _ ▸ Iff.rfl

theorem report_outside {a b : Edit} (h : a.span = b.span) (n : Nat) :
    (EditError.outside a n).report = (EditError.outside b n).report := by
  obtain ⟨hstart, hstop⟩ := span_eq_iff.1 h
  unfold EditError.report EditError.message EditError.kind
  dsimp only
  rw [hstart, hstop]

theorem report_overlapping {a b a' b' : Edit} (ha : a.span = a'.span) (hb : b.span = b'.span) :
    (EditError.overlapping a b).report = (EditError.overlapping a' b').report := by
  obtain ⟨hstart, hstop⟩ := span_eq_iff.1 ha
  obtain ⟨hstart', hstop'⟩ := span_eq_iff.1 hb
  unfold EditError.report EditError.message EditError.kind
  dsimp only
  rw [hstart, hstop, hstart', hstop']

/-- Sorting puts the ranges in one order, whatever the order of the edits. -/
theorem map_span_mergeSort {edits edits' : List Edit} (h : edits.Perm edits') :
    (edits.mergeSort le).map span = (edits'.mergeSort le).map span := by
  have hsorted : ∀ l : List Edit, ((l.mergeSort le).map span).Pairwise
      fun p q => p.1 < q.1 ∨ p.1 = q.1 ∧ p.2 ≤ q.2 := by
    intro l
    rw [List.pairwise_map]
    exact (pairwise_le_mergeSort l).imp le_iff.1
  have hperm : (edits.mergeSort le).Perm (edits'.mergeSort le) :=
    (List.mergeSort_perm edits le).trans (h.trans (List.mergeSort_perm edits' le).symm)
  apply List.Perm.eq_of_pairwise _ (hsorted edits) (hsorted edits') (hperm.map span)
  intro p q _ _ hpq hqp
  apply Prod.ext <;> omega

/-! ### What the checks look at -/

/-- The first edit outside a text is found by the ranges. -/
theorem find?_unfit_span {ordered ordered' : List Edit} (h : ordered.map span = ordered'.map span)
    (n : Nat) :
    (ordered.find? fun e => !e.fits n).map span = (ordered'.find? fun e => !e.fits n).map span := by
  have hspan : ∀ l : List Edit, (l.find? fun e => !e.fits n).map span =
      (l.map span).find? fun p => !decide (0 ≤ p.1 ∧ p.1 ≤ p.2 ∧ p.2 ≤ (n : Int)) := by
    intro l
    rw [List.find?_map]
    rfl
  rw [hspan, hspan, h]

/-- Whether an edit meets the next one is said by the ranges. -/
theorem meets_congr {a b a' b' : Edit} (ha : a.span = a'.span) (hb : b.span = b'.span) :
    a.meets b = a'.meets b' := by
  obtain ⟨hstart, hstop⟩ := span_eq_iff.1 ha
  obtain ⟨hstart', hstop'⟩ := span_eq_iff.1 hb
  rw [meets, meets, hstart, hstop, hstart', hstop']

/-- The first two edits that meet are found by the ranges. -/
theorem firstMeeting_span {ordered ordered' : List Edit}
    (h : ordered.map span = ordered'.map span) :
    (firstMeeting ordered).map (Prod.map span span) =
      (firstMeeting ordered').map (Prod.map span span) := by
  fun_induction firstMeeting ordered generalizing ordered' with
  | case1 a b rest hab =>
    obtain ⟨a', rest', rfl, ha, hrest⟩ := List.map_eq_cons_iff.1 h.symm
    obtain ⟨b', rest'', rfl, hb, -⟩ := List.map_eq_cons_iff.1 hrest
    rw [firstMeeting, meets_congr ha hb, if_pos hab]
    simp only [Option.map_some, Prod.map, ha, hb]
  | case2 a b rest hab ih =>
    obtain ⟨a', rest', rfl, ha, hrest⟩ := List.map_eq_cons_iff.1 h.symm
    obtain ⟨b', rest'', rfl, hb, -⟩ := List.map_eq_cons_iff.1 hrest
    rw [firstMeeting, meets_congr ha hb, if_neg hab]
    exact ih hrest.symm
  | case3 ordered hno =>
    -- neither list has neighbours
    cases ordered with
    | nil =>
      obtain rfl := List.map_eq_nil_iff.1 h.symm
      rfl
    | cons a rest =>
      obtain ⟨a', rest', rfl, -, hrest⟩ := List.map_eq_cons_iff.1 h.symm
      cases rest with
      | nil =>
        obtain rfl := List.map_eq_nil_iff.1 hrest
        rfl
      | cons b rest => exact absurd rfl (hno a b rest)

/-! ### The verdict -/

/-- **The verdict does not depend on the order**: the same refusal, or the same list. -/
theorem report_validate_of_perm (t : Text) {edits edits' : List Edit} (h : edits.Perm edits') :
    (validate t edits).mapError EditError.report =
      (validate t edits').mapError EditError.report := by
  have hspans := map_span_mergeSort h
  have hfind := find?_unfit_span hspans t.length
  have hmeet := firstMeeting_span hspans
  cases hf : (edits.mergeSort le).find? fun e => !e.fits t.length with
  | some e =>
    rw [hf] at hfind
    obtain ⟨e', hf', hspan⟩ := Option.map_eq_some_iff.1 hfind.symm
    have herror : validate t edits = .error (.outside e t.length) := by
      simp only [validate, validateIn, hf]
    have herror' : validate t edits' = .error (.outside e' t.length) := by
      simp only [validate, validateIn, hf']
    rw [herror, herror']
    exact congrArg Except.error (report_outside hspan.symm t.length)
  | none =>
    rw [hf] at hfind
    have hf' := Option.map_eq_none_iff.1 hfind.symm
    cases hm : firstMeeting (edits.mergeSort le) with
    | some p =>
      rw [hm] at hmeet
      obtain ⟨p', hm', hpair⟩ := Option.map_eq_some_iff.1 hmeet.symm
      obtain ⟨hfirst, hsecond⟩ := Prod.mk.inj hpair
      have herror : validate t edits = .error (.overlapping p.1 p.2) := by
        simp only [validate, validateIn, hf, hm]
      have herror' : validate t edits' = .error (.overlapping p'.1 p'.2) := by
        simp only [validate, validateIn, hf', hm']
      rw [herror, herror']
      exact congrArg Except.error (report_overlapping hfirst.symm hsecond.symm)
    | none =>
      have hok : validate t edits = .ok (edits.mergeSort le) := by
        simp only [validate, validateIn, hf, hm]
      obtain ⟨harranged, hperm⟩ := validate_eq_ok_iff.1 hok
      rw [hok, validate_eq_ok_iff.2 ⟨harranged, hperm.trans h⟩]

/-- **The order in which edits are listed does not matter.** The same edits in another order give
the same text, or are refused by the same check in the same words. -/
theorem applyAll_of_perm (t : Text) {edits edits' : List Edit} (h : edits.Perm edits') :
    (applyAll t edits).mapError EditError.report =
      (applyAll t edits').mapError EditError.report := by
  have hmap : ∀ x : Except EditError (List Edit),
      (x.map fun ordered => replaceAll ordered t).mapError EditError.report =
        (x.mapError EditError.report).map fun ordered => replaceAll ordered t := by
    intro x
    cases x <;> rfl
  rw [applyAll, applyAll, hmap, hmap, report_validate_of_perm t h]

/-- An insertion behind the first character. -/
def insertion (new : Text) : Edit := ⟨1, 1, new, ""⟩

theorem applyAll_insertions (x y : Text) :
    applyAll "abc".toList [insertion x, insertion y] =
      .error (.overlapping (insertion x) (insertion y)) := by
  have hsorted : [insertion x, insertion y].mergeSort le = [insertion x, insertion y] :=
    List.mergeSort_of_pairwise (by simp [insertion, le])
  have hmeets : (insertion x).meets (insertion y) = true := rfl
  have hfits : ∀ z, (insertion z).fits "abc".toList.length = true := fun _ => rfl
  simp only [applyAll, validate, validateIn, hsorted, List.find?_cons, hfits, firstMeeting, hmeets]
  rfl

/-- Two insertions at one offset are named in the order in which they are listed, and their
refusal reads the same both ways. -/
theorem insertions_swapped :
    [insertion "x".toList, insertion "y".toList].Perm [insertion "y".toList, insertion "x".toList] ∧
      applyAll "abc".toList [insertion "x".toList, insertion "y".toList] =
        .error (.overlapping (insertion "x".toList) (insertion "y".toList)) ∧
      applyAll "abc".toList [insertion "y".toList, insertion "x".toList] =
        .error (.overlapping (insertion "y".toList) (insertion "x".toList)) ∧
      (applyAll "abc".toList [insertion "x".toList, insertion "y".toList]).mapError
          EditError.report =
        (applyAll "abc".toList [insertion "y".toList, insertion "x".toList]).mapError
          EditError.report :=
  have hswap := List.Perm.swap (insertion "y".toList) (insertion "x".toList) []
  ⟨hswap, applyAll_insertions _ _, applyAll_insertions _ _, applyAll_of_perm _ hswap⟩

end Edit

end TreeLint
