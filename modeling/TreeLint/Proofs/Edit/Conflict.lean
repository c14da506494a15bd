import TreeLint.Proofs.Edit.Splice

/-!
# Edits in conflict

Validation looks at neighbours only: it sorts the edits and asks of each whether it meets the
next one. What it decides concerns all pairs. Two edits are in conflict (`Edit.Conflicts`) if
neither ends before the other starts, or if both insert at one offset, and

* `firstMeeting_eq_none_iff` — sorted edits in a text have no neighbours that meet exactly when
  no two of them at all are in conflict;
* `validate_cases` — so validation names an edit outside the text, or else two edits in conflict
  from different places of the list, or else it gives the edits back arranged
  (`Edit.Arranged`), each behind the one before it;
* `validate_eq_ok_iff` — there is only one way to arrange edits, so what is accepted does not
  depend on the order in which it is proposed;
* `validate_decides` — the verdict in terms of the proposed edits alone.
-/

namespace TreeLint

namespace Edit

/-- Neither of two edits ends before the other starts, or both insert at one offset. -/
def Conflicts (a b : Edit) : Prop :=
  ¬a.stop ≤ b.start ∧ ¬b.stop ≤ a.start ∨
    a.start = a.stop ∧ b.start = b.stop ∧ a.start = b.start

instance (a b : Edit) : Decidable (a.Conflicts b) := inferInstanceAs (Decidable (_ ∨ _))

theorem Conflicts.symm {a b : Edit} (h : a.Conflicts b) : b.Conflicts a := by
  unfold Conflicts at h ⊢
  omega

/-! ### Neighbours and pairs -/

/-- For edits in order, being in conflict is meeting. -/
theorem conflicts_iff_meets {n : Nat} {a b : Edit} (ha : a.fits n = true) (hb : b.fits n = true)
    (hle : a.le b = true) : a.Conflicts b ↔ a.meets b = true := by
  rw [fits_iff] at ha hb
  rw [le_iff] at hle
  rw [← Bool.not_eq_false, meets_eq_false_iff, Conflicts]
  omega

/-- An edit that does not meet the next one is in conflict with no later one. -/
theorem not_conflicts_of_not_meets {n : Nat} {a b c : Edit} (ha : a.fits n = true)
    (hb : b.fits n = true) (hbc : b.le c = true) (hab : a.meets b = false) : ¬a.Conflicts c := by
  rw [fits_iff] at ha hb
  rw [le_iff] at hbc
  rw [meets_eq_false_iff] at hab
  unfold Conflicts
  omega

theorem pairwise_of_firstMeeting {n : Nat} {ordered : List Edit}
    (hfit : ∀ e ∈ ordered, e.fits n = true) (hsorted : ordered.Pairwise fun a b => a.le b = true)
    (h : firstMeeting ordered = none) : ordered.Pairwise fun a b => ¬a.Conflicts b := by
  fun_induction firstMeeting ordered with
  | case1 a b rest hab => cases h
  | case2 a b rest hab ih =>
    have hfa := hfit a List.mem_cons_self
    have hfb := hfit b (List.mem_cons_of_mem _ List.mem_cons_self)
    have hrest := ih (fun e he => hfit e (List.mem_cons_of_mem _ he)) hsorted.of_cons h
    refine List.pairwise_cons.2 ⟨?_, hrest⟩
    intro c hc
    rcases List.mem_cons.1 hc with rfl | hc'
    · rw [conflicts_iff_meets hfa hfb (List.rel_of_pairwise_cons hsorted hc)]
      exact hab
    · have hbc := List.rel_of_pairwise_cons hsorted.of_cons hc'
      exact not_conflicts_of_not_meets hfa hfb hbc (by simpa using hab)
  | case3 ordered hno =>
    cases ordered with
    | nil => exact List.Pairwise.nil
    | cons a rest =>
      cases rest with
      | nil => exact List.pairwise_singleton _ a
      | cons b rest => exact absurd rfl (hno a b rest)

/-- Sorted edits in a text are free of conflicts exactly when none of them meets a later one. -/
theorem pairwise_conflicts_iff {n : Nat} {ordered : List Edit}
    (hfit : ∀ e ∈ ordered, e.fits n = true)
    (hsorted : ordered.Pairwise fun a b => a.le b = true) :
    (ordered.Pairwise fun a b => ¬a.Conflicts b) ↔
      ordered.Pairwise fun a b => a.meets b = false := by
  have hpair : ∀ {a b : Edit}, a ∈ ordered → b ∈ ordered → a.le b = true →
      (¬a.Conflicts b ↔ a.meets b = false) := by
    intro a b ha hb hle
    rw [conflicts_iff_meets (hfit a ha) (hfit b hb) hle, Bool.not_eq_true]
  constructor
  · intro h
    exact (hsorted.and h).imp_of_mem fun ha hb hab => (hpair ha hb hab.1).1 hab.2
  · intro h
    exact (hsorted.and h).imp_of_mem fun ha hb hab => (hpair ha hb hab.1).2 hab.2

/-- **Neighbours decide for all pairs.** -/
theorem firstMeeting_eq_none_iff {n : Nat} {ordered : List Edit}
    (hfit : ∀ e ∈ ordered, e.fits n = true)
    (hsorted : ordered.Pairwise fun a b => a.le b = true) :
    firstMeeting ordered = none ↔ ordered.Pairwise fun a b => ¬a.Conflicts b := by
  constructor
  · exact pairwise_of_firstMeeting hfit hsorted
  · intro h
    exact firstMeeting_eq_none ((pairwise_conflicts_iff hfit hsorted).1 h)

/-- The edits that are found to meet stand next to each other. -/
theorem exists_of_firstMeeting {ordered : List Edit} {a b : Edit}
    (h : firstMeeting ordered = some (a, b)) :
    a.meets b = true ∧ ∃ front back, ordered = front ++ a :: b :: back := by
  fun_induction firstMeeting ordered with
  | case1 x y rest hxy =>
    cases h
    exact ⟨hxy, [], rest, rfl⟩
  | case2 x y rest hxy ih =>
    obtain ⟨hab, front, back, heq⟩ := ih h
    exact ⟨hab, x :: front, back, by rw [heq, List.cons_append]⟩
  | case3 => cases h

/-! ### Places of a list -/

/-- Two entries from different places of a list stand in a relation, whichever comes first,
unless the relation holds for no pair of the list. -/
theorem exists_places_iff {R : Edit → Edit → Prop} (hsymm : ∀ {a b}, R a b → R b a)
    {edits : List Edit} :
    (∃ (i j : Nat) (a b : Edit), i ≠ j ∧ edits[i]? = some a ∧ edits[j]? = some b ∧ R a b) ↔
      ¬edits.Pairwise fun a b => ¬R a b := by
  rw [List.pairwise_iff_getElem]
  constructor
  · rintro ⟨i, j, a, b, hne, ha, hb, hab⟩ hpairs
    obtain ⟨hi, rfl⟩ := List.getElem?_eq_some_iff.1 ha
    obtain ⟨hj, rfl⟩ := List.getElem?_eq_some_iff.1 hb
    rcases Nat.lt_or_gt_of_ne hne with hlt | hgt
    · exact hpairs i j hi hj hlt hab
    · exact hpairs j i hj hi hgt (hsymm hab)
  · intro h
    apply Classical.byContradiction
    intro hno
    apply h
    intro i j hi hj hlt hab
    exact hno ⟨i, j, _, _, Nat.ne_of_lt hlt, List.getElem?_eq_getElem hi,
      List.getElem?_eq_getElem hj, hab⟩

/-- Two edits of a list, at different places of it, are in conflict. -/
def SomeConflict (edits : List Edit) : Prop :=
  ∃ (i j : Nat) (a b : Edit), i ≠ j ∧ edits[i]? = some a ∧ edits[j]? = some b ∧ a.Conflicts b

theorem someConflict_iff {edits : List Edit} :
    SomeConflict edits ↔ ¬edits.Pairwise fun a b => ¬a.Conflicts b :=
  exists_places_iff Conflicts.symm

/-- Two edits are the two given ones, whichever comes first. -/
def IsPair (a b x y : Edit) : Prop := x = a ∧ y = b ∨ x = b ∧ y = a

theorem IsPair.symm {a b x y : Edit} (h : IsPair a b x y) : IsPair a b y x :=
  h.elim (fun h => Or.inr ⟨h.2, h.1⟩) (fun h => Or.inl ⟨h.2, h.1⟩)

/-- Neighbours come from two different places of every reordering, also if they are equal. -/
theorem exists_places_of_perm {edits front back : List Edit} {a b : Edit}
    (h : (front ++ a :: b :: back).Perm edits) :
    ∃ i j : Nat, i ≠ j ∧ edits[i]? = some a ∧ edits[j]? = some b := by
  have hpairs : ¬edits.Pairwise fun x y => ¬IsPair a b x y := by
    rw [← h.pairwise_iff fun hno hyx => hno hyx.symm, List.pairwise_append]
    rintro ⟨-, hback, -⟩
    exact List.rel_of_pairwise_cons hback List.mem_cons_self (Or.inl ⟨rfl, rfl⟩)
  obtain ⟨i, j, x, y, hne, hx, hy, hpair⟩ := (exists_places_iff IsPair.symm).2 hpairs
  rcases hpair with ⟨rfl, rfl⟩ | ⟨rfl, rfl⟩
  · exact ⟨i, j, hne, hx, hy⟩
  · exact ⟨j, i, hne.symm, hy, hx⟩

/-! ### Edits in their places -/

/-- Edits in a text, each behind the one before it: what validation gives back. -/
structure Arranged (n : Nat) (ordered : List Edit) : Prop where
  fits : ∀ e ∈ ordered, e.fits n = true
  apart : ordered.Pairwise fun a b => a.meets b = false

namespace Arranged

variable {n : Nat} {ordered : List Edit}

/-- Each edit ends before all later ones start. -/
theorem stop_le_start (h : Arranged n ordered) :
    ordered.Pairwise fun a b => a.stop ≤ b.start :=
  h.apart.imp fun hab => (meets_eq_false_iff.1 hab).1

/-- Arranged edits are in order, and no two of them share their range. -/
theorem before (h : Arranged n ordered) :
    ordered.Pairwise fun a b => a.le b = true ∧ b.le a = false := by
  refine h.apart.imp_of_mem ?_
  intro a b ha hb hab
  have hfa := fits_iff.1 (h.fits a ha)
  have hfb := fits_iff.1 (h.fits b hb)
  rw [meets_eq_false_iff] at hab
  rw [← Bool.not_eq_true, le_iff, le_iff]
  omega

theorem sorted (h : Arranged n ordered) : ordered.Pairwise fun a b => a.le b = true :=
  h.before.imp And.left

theorem not_someConflict (h : Arranged n ordered) {edits : List Edit}
    (hperm : ordered.Perm edits) : ¬SomeConflict edits := by
  rw [someConflict_iff, Classical.not_not, ← hperm.pairwise_iff fun hno hba => hno hba.symm]
  exact (pairwise_conflicts_iff h.fits h.sorted).2 h.apart

/-- Two arranged edits of which none comes before the other are one. -/
theorem eq_of_le (h : Arranged n ordered) {a b : Edit} (ha : a ∈ ordered) (hb : b ∈ ordered)
    (hab : a.le b = true) (hba : b.le a = true) : a = b := by
  obtain ⟨i, hi, rfl⟩ := List.getElem_of_mem ha
  obtain ⟨j, hj, rfl⟩ := List.getElem_of_mem hb
  have hbefore := List.pairwise_iff_getElem.1 h.before
  rcases Nat.lt_trichotomy i j with hlt | rfl | hgt
  · have := (hbefore i j hi hj hlt).2
    rw [hba] at this
    cases this
  · rfl
  · have := (hbefore j i hj hi hgt).2
    rw [hab] at this
    cases this

/-- **Edits can be arranged in one way only**, and sorting finds it from any order. -/
theorem mergeSort_eq (h : Arranged n ordered) {edits : List Edit} (hperm : ordered.Perm edits) :
    edits.mergeSort le = ordered := by
  have hsort : (edits.mergeSort le).Perm ordered :=
    (List.mergeSort_perm edits le).trans hperm.symm
  apply List.Perm.eq_of_pairwise _ (pairwise_le_mergeSort edits) h.sorted hsort
  intro a b ha hb
  exact h.eq_of_le (hsort.mem_iff.1 ha) hb

end Arranged

/-! ### What validation decides -/

/-- **The verdicts of validation**, and what each of them says. -/
theorem validate_cases (t : Text) (edits : List Edit) :
    (∃ e ∈ edits, e.fits t.length = false ∧
        validate t edits = .error (.outside e t.length)) ∨
      (∃ a b, (∀ e ∈ edits, e.fits t.length = true) ∧ a.Conflicts b ∧
        (∃ i j : Nat, i ≠ j ∧ edits[i]? = some a ∧ edits[j]? = some b) ∧
        validate t edits = .error (.overlapping a b)) ∨
      ∃ ordered, Arranged t.length ordered ∧ ordered.Perm edits ∧
        validate t edits = .ok ordered := by
  have hperm := List.mergeSort_perm edits le
  have hsorted := pairwise_le_mergeSort edits
  cases hfind : (edits.mergeSort le).find? fun e => !e.fits t.length with
  | some e =>
    refine Or.inl ⟨e, hperm.mem_iff.1 (List.mem_of_find?_eq_some hfind), ?_, ?_⟩
    · simpa using List.find?_some hfind
    · simp only [validate, validateIn, hfind]
  | none =>
    have hfit := find?_unfit_eq_none_iff.1 hfind
    cases hmeet : firstMeeting (edits.mergeSort le) with
    | some p =>
      obtain ⟨hab, front, back, heq⟩ := exists_of_firstMeeting hmeet
      have hsplit := heq ▸ hsorted
      have hle : p.1.le p.2 = true :=
        List.rel_of_pairwise_cons (List.pairwise_append.1 hsplit).2.1 List.mem_cons_self
      have hmem : p.1 ∈ edits.mergeSort le ∧ p.2 ∈ edits.mergeSort le := by
        rw [heq]
        simp
      refine Or.inr (Or.inl ⟨p.1, p.2, fun e he => hfit e (hperm.mem_iff.2 he), ?_, ?_, ?_⟩)
      · exact (conflicts_iff_meets (hfit _ hmem.1) (hfit _ hmem.2) hle).2 hab
      · exact exists_places_of_perm (heq ▸ hperm)
      · simp only [validate, validateIn, hfind, hmeet]
    | none =>
      refine Or.inr (Or.inr ⟨edits.mergeSort le, ⟨hfit, ?_⟩, hperm, ?_⟩)
      · rw [← pairwise_conflicts_iff hfit hsorted, ← firstMeeting_eq_none_iff hfit hsorted]
        exact hmeet
      · simp only [validate, validateIn, hfind, hmeet]

/-- **What validation accepts**, and what it gives back. -/
theorem validate_eq_ok_iff {t : Text} {edits ordered : List Edit} :
    validate t edits = .ok ordered ↔ Arranged t.length ordered ∧ ordered.Perm edits := by
  constructor
  · intro h
    rcases validate_cases t edits with ⟨e, -, -, herror⟩ | ⟨a, b, -, -, -, herror⟩ |
      ⟨ordered', harranged, hperm, hok⟩
    · rw [herror] at h
      cases h
    · rw [herror] at h
      cases h
    · rw [hok] at h
      cases h
      exact ⟨harranged, hperm⟩
  · rintro ⟨harranged, hperm⟩
    have hfind := find?_unfit_eq_none_iff.2 harranged.fits
    have hmeet := firstMeeting_eq_none harranged.apart
    simp only [validate, validateIn, harranged.mergeSort_eq hperm, hfind, hmeet]

/-- Applying edits in a text fails exactly for two in conflict, and then as overlapping. -/
theorem applyAll_of_fits {t : Text} {edits : List Edit}
    (hfit : ∀ e ∈ edits, e.fits t.length = true) :
    (∀ e n, applyAll t edits ≠ .error (.outside e n)) ∧
      ((∃ a b, applyAll t edits = .error (.overlapping a b)) ↔ SomeConflict edits) := by
  rw [applyAll]
  rcases validate_cases t edits with ⟨e, he, hunfit, -⟩ |
    ⟨a, b, -, hab, ⟨i, j, hne, ha, hb⟩, herror⟩ | ⟨ordered, harranged, hperm, hok⟩
  · rw [hfit e he] at hunfit
    cases hunfit
  · rw [herror]
    refine ⟨?_, fun _ => ⟨i, j, a, b, hne, ha, hb, hab⟩, fun _ => ⟨a, b, rfl⟩⟩
    intro e n h
    cases h
  · rw [hok]
    refine ⟨?_, ?_, fun h => absurd h (harranged.not_someConflict hperm)⟩
    · intro e n h
      cases h
    · rintro ⟨a, b, h⟩
      cases h

theorem fits_eq_false_iff {n : Nat} {e : Edit} :
    e.fits n = false ↔ ¬(0 ≤ e.start ∧ e.start ≤ e.stop ∧ e.stop ≤ n) := by
  rw [← fits_iff, Bool.not_eq_true]

/-- **Validation accepts exactly the sets without conflict.** Edits outside the text are reported
before everything else. Otherwise two edits that are reported as overlapping are in conflict and
stand at different places of the list, and some are reported if any two are in conflict, wherever
they stand. Otherwise the edits come back in order, each ending before the later ones start. -/
theorem validate_decides (t : Text) (edits : List Edit) :
    ((∃ e n, validate t edits = .error (.outside e n)) ↔
      ∃ e ∈ edits, ¬(0 ≤ e.start ∧ e.start ≤ e.stop ∧ e.stop ≤ t.length)) ∧
    ((∃ a b, validate t edits = .error (.overlapping a b)) ↔
      (∀ e ∈ edits, 0 ≤ e.start ∧ e.start ≤ e.stop ∧ e.stop ≤ t.length) ∧
        SomeConflict edits) ∧
    (∀ a b, validate t edits = .error (.overlapping a b) →
      a.Conflicts b ∧ ∃ i j : Nat, i ≠ j ∧ edits[i]? = some a ∧ edits[j]? = some b) ∧
    ((∀ e ∈ edits, 0 ≤ e.start ∧ e.start ≤ e.stop ∧ e.stop ≤ t.length) →
      ¬SomeConflict edits → ∃ ordered, validate t edits = .ok ordered ∧ ordered.Perm edits ∧
        (ordered.Pairwise fun a b =>
          a.start < b.start ∨ a.start = b.start ∧ a.stop ≤ b.stop) ∧
        ordered.Pairwise fun a b => a.stop ≤ b.start) := by
  rcases validate_cases t edits with ⟨e, he, hunfit, herror⟩ |
    ⟨a, b, hfit, hab, ⟨i, j, hne, ha, hb⟩, herror⟩ | ⟨ordered, harranged, hperm, hok⟩
  · have hout := fits_eq_false_iff.1 hunfit
    rw [herror]
    refine ⟨⟨fun _ => ⟨e, he, hout⟩, fun _ => ⟨e, t.length, rfl⟩⟩, ⟨?_, ?_⟩, ?_, ?_⟩
    · rintro ⟨a, b, h⟩
      cases h
    · rintro ⟨hfit, -⟩
      exact absurd (hfit e he) hout
    · intro a b h
      cases h
    · intro hfit
      exact absurd (hfit e he) hout
  · have hconflict : SomeConflict edits := ⟨i, j, a, b, hne, ha, hb, hab⟩
    rw [herror]
    refine ⟨⟨?_, ?_⟩, ⟨fun _ => ⟨fun e he => fits_iff.1 (hfit e he), hconflict⟩, ?_⟩, ?_, ?_⟩
    · rintro ⟨e, n, h⟩
      cases h
    · rintro ⟨e, he, hout⟩
      exact absurd (fits_iff.1 (hfit e he)) hout
    · intro _
      exact ⟨a, b, rfl⟩
    · intro x y h
      cases h
      exact ⟨hab, i, j, hne, ha, hb⟩
    · intro _ hno
      exact absurd hconflict hno
  · have hno := harranged.not_someConflict hperm
    rw [hok]
    refine ⟨⟨?_, ?_⟩, ⟨?_, fun h => absurd h.2 hno⟩, ?_, fun _ _ => ⟨ordered, rfl, hperm, ?_, ?_⟩⟩
    · rintro ⟨e, n, h⟩
      cases h
    · rintro ⟨e, he, hout⟩
      exact absurd (fits_iff.1 (harranged.fits e (hperm.mem_iff.2 he))) hout
    · rintro ⟨a, b, h⟩
      cases h
    · intro a b h
      cases h
    · exact harranged.sorted.imp le_iff.1
    · exact harranged.stop_le_start

/-- Edits that touch each other everywhere in a text of six characters, without conflict: a
deletion, an insertion behind it, a replacement from the same offset on, an insertion behind that
one. -/
def touchingEdits : List Edit :=
  [⟨2, 4, "XYZ".toList, ""⟩, ⟨4, 4, "w".toList, ""⟩, ⟨0, 2, [], ""⟩, ⟨2, 2, "v".toList, ""⟩]

/-- A replacement of the whole text, with an edit in it that does not come next in order. -/
def coveredEdits : List Edit := [⟨3, 4, "x".toList, ""⟩, ⟨1, 1, [], ""⟩, ⟨0, 6, "y".toList, ""⟩]

/-- Touching edits are accepted; edits below another are refused, although one of those in
conflict is not its neighbour. -/
theorem touchingEdits_accepted :
    (∃ ordered, validate "abcdef".toList touchingEdits = .ok ordered ∧
      ordered.Perm touchingEdits ∧
      (ordered.Pairwise fun a b => a.start < b.start ∨ a.start = b.start ∧ a.stop ≤ b.stop) ∧
      ordered.Pairwise fun a b => a.stop ≤ b.start) ∧
    ∃ a b, validate "abcdef".toList coveredEdits = .error (.overlapping a b) := by
  have hfree : ¬SomeConflict touchingEdits := by
    rw [someConflict_iff, Classical.not_not]
    decide
  obtain ⟨-, -, -, haccepted⟩ := validate_decides "abcdef".toList touchingEdits
  obtain ⟨-, hrefused, -, -⟩ := validate_decides "abcdef".toList coveredEdits
  refine ⟨haccepted (by decide) hfree, hrefused.2 ⟨by decide, 0, 2, _, _, by decide, rfl, rfl, ?_⟩⟩
  decide

end Edit

end TreeLint
