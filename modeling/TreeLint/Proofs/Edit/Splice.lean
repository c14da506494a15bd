import TreeLint.Edit
import TreeLint.Proofs.Text.Insertion

/-!
# Edits that keep their distance

A set of edits is sorted, checked, and then applied from the last to the first. This module says
what comes out of it in terms of the text that the edits were proposed for:

* `replaceAll_eq_splice` — edits in order, none reaching into the next, replace their parts of the
  text where they stand and keep what lies between (`Edit.splice`);
* `validate_of_apart` — edits that lie in the text and keep a distance from each other
  (`Edit.Apart`) are accepted, in whatever order they are proposed;
* `applyAll_eq_insertAt` — if moreover each of them puts the same mark in front of what it
  replaces, the result is the text with the mark inserted where the edits start.
-/

namespace TreeLint

namespace Edit

/-! ### The order of edits -/

theorem le_iff {a b : Edit} :
    a.le b = true ↔ a.start < b.start ∨ a.start = b.start ∧ a.stop ≤ b.stop := by
  simp [le]

theorem fits_iff {n : Nat} {e : Edit} :
    e.fits n = true ↔ 0 ≤ e.start ∧ e.start ≤ e.stop ∧ e.stop ≤ n := by
  simp [fits]

theorem meets_eq_false_iff {a b : Edit} :
    a.meets b = false ↔
      a.stop ≤ b.start ∧ ¬(a.start = a.stop ∧ a.stop = b.start ∧ b.start = b.stop) := by
  simp only [meets, Bool.or_eq_false_iff, decide_eq_false_iff_not, Int.not_lt,
    Bool.and_eq_false_iff, beq_eq_false_iff_ne]
  omega

theorem find?_unfit_eq_none_iff {n : Nat} {edits : List Edit} :
    edits.find? (fun e => !e.fits n) = none ↔ ∀ e ∈ edits, e.fits n = true := by
  simp only [List.find?_eq_none, Bool.not_eq_true', Bool.not_eq_false]

theorem pairwise_le_mergeSort (edits : List Edit) :
    (edits.mergeSort le).Pairwise fun a b => a.le b = true := by
  apply List.pairwise_mergeSort
  · intro a b c hab hbc
    rw [le_iff] at hab hbc ⊢
    omega
  · intro a b
    rw [Bool.or_eq_true, le_iff, le_iff]
    omega

/-! ### Edits at a distance -/

/-- One of two edits ends before the other one starts, with a character between them. -/
def Apart (a b : Edit) : Prop := a.stop < b.start ∨ b.stop < a.start

theorem Apart.symm {a b : Edit} (h : Apart a b) : Apart b a := Or.symm h

/-- Sorted edits at a distance follow one another. -/
theorem pairwise_sorted_of_apart {n : Nat} {edits : List Edit}
    (hfit : ∀ e ∈ edits, e.fits n = true) (hapart : edits.Pairwise Apart) :
    (edits.mergeSort le).Pairwise fun a b => a.stop < b.start := by
  have hperm := List.mergeSort_perm edits le
  have hapart' : (edits.mergeSort le).Pairwise Apart :=
    (hperm.pairwise_iff fun h => h.symm).2 hapart
  have hboth := (pairwise_le_mergeSort edits).and hapart'
  refine hboth.imp_of_mem ?_
  intro a b ha hb ⟨hle, hab⟩
  have hfa := fits_iff.1 (hfit a (hperm.mem_iff.1 ha))
  have hfb := fits_iff.1 (hfit b (hperm.mem_iff.1 hb))
  rw [le_iff] at hle
  rcases hab with hab | hba
  · exact hab
  · omega

theorem firstMeeting_eq_none {ordered : List Edit}
    (h : ordered.Pairwise fun a b => a.meets b = false) : firstMeeting ordered = none := by
  fun_induction firstMeeting ordered with
  | case1 a b rest hab =>
    have := List.rel_of_pairwise_cons h List.mem_cons_self
    rw [this] at hab
    cases hab
  | case2 a b rest hab ih => exact ih h.of_cons
  | case3 => rfl

/-- Edits in the text and at a distance are accepted. -/
theorem validate_of_apart {t : Text} {edits : List Edit}
    (hfit : ∀ e ∈ edits, e.fits t.length = true) (hapart : edits.Pairwise Apart) :
    validate t edits = .ok (edits.mergeSort le) := by
  have hsorted := pairwise_sorted_of_apart hfit hapart
  have hfind : (edits.mergeSort le).find? (fun e => !e.fits t.length) = none :=
    find?_unfit_eq_none_iff.2 fun e he => hfit e (List.mem_mergeSort.1 he)
  have hmeet : firstMeeting (edits.mergeSort le) = none := by
    apply firstMeeting_eq_none
    refine hsorted.imp ?_
    intro a b hab
    rw [meets_eq_false_iff]
    omega
  simp only [validate, validateIn, hfind, hmeet]

/-! ### Replacing where the edits stand -/

/-- The text from offset `i` on with its edits in order replaced, and all that lies between them
kept. -/
def splice (t : Text) : Nat → List Edit → Text
  | i, [] => t.drop i
  | i, e :: rest => t.slice i e.start.toNat ++ e.newText ++ splice t e.stop.toNat rest

/-- **Replacing from the last edit to the first replaces each where it stands.** The part of the
text before the first edit may be cut off at any offset `i`. -/
theorem replaceAll_eq_splice {t : Text} {ordered : List Edit}
    (hfit : ∀ e ∈ ordered, e.fits t.length = true)
    (hord : ordered.Pairwise fun a b => a.stop ≤ b.start) (i : Nat)
    (hi : ∀ e ∈ ordered, (i : Int) ≤ e.start) :
    replaceAll ordered t = t.take i ++ splice t i ordered := by
  induction ordered generalizing i with
  | nil => simp [splice]
  | cons e rest ih =>
    obtain ⟨hnonneg, hle, hlen⟩ := fits_iff.1 (hfit e List.mem_cons_self)
    have hie := hi e List.mem_cons_self
    -- the later edits leave the text up to the end of this one alone
    have hrest : replaceAll rest t = t.take e.stop.toNat ++ splice t e.stop.toNat rest := by
      apply ih (fun x hx => hfit x (List.mem_cons_of_mem _ hx)) hord.of_cons
      intro x hx
      have := List.rel_of_pairwise_cons hord hx
      omega
    have hcut : (t.take e.stop.toNat).length = e.stop.toNat := by
      rw [List.length_take]
      omega
    have hfront : (replaceAll rest t).take e.start.toNat = t.take e.start.toNat := by
      rw [hrest, List.take_append_of_le_length (by omega), List.take_take,
        Nat.min_eq_left (by omega)]
    have hback : (replaceAll rest t).drop e.stop.toNat = splice t e.stop.toNat rest := by
      rw [hrest, List.drop_left' hcut]
    rw [replaceAll_cons, replaceIn, hfront, hback, splice,
      Text.take_eq_take_append t (show i ≤ e.start.toNat from by omega)]
    simp only [List.append_assoc]

/-! ### Putting a mark in front -/

/-- Edits in order that put a mark in front of what they replace insert the mark. -/
theorem splice_eq_markFrom {mark t : Text} {ordered : List Edit}
    (hfit : ∀ e ∈ ordered, e.fits t.length = true)
    (hord : ordered.Pairwise fun a b => a.stop < b.start)
    (hnew : ∀ e ∈ ordered, e.newText = mark ++ t.slice e.start.toNat e.stop.toNat)
    (hne : ∀ e ∈ ordered, e.start < e.stop) (i : Nat) (hi : ∀ e ∈ ordered, (i : Int) ≤ e.start) :
    splice t i ordered =
      Text.markFrom mark (ordered.map fun e => e.start.toNat) i (t.drop i) := by
  induction ordered generalizing i with
  | nil =>
    rw [splice, Text.markFrom_eq_self]
    simp
  | cons e rest ih =>
    obtain ⟨hnonneg, hle, hlen⟩ := fits_iff.1 (hfit e List.mem_cons_self)
    have hie := hi e List.mem_cons_self
    have hnonempty := hne e List.mem_cons_self
    have hlater : ∀ p ∈ rest.map (fun x => x.start.toNat), e.stop.toNat < p := by
      intro p hp
      obtain ⟨x, hx, rfl⟩ := List.mem_map.1 hp
      have := List.rel_of_pairwise_cons hord hx
      omega
    have htail := ih (fun x hx => hfit x (List.mem_cons_of_mem _ hx)) hord.of_cons
      (fun x hx => hnew x (List.mem_cons_of_mem _ hx))
      (fun x hx => hne x (List.mem_cons_of_mem _ hx)) e.stop.toNat (by
        intro x hx
        have := List.rel_of_pairwise_cons hord hx
        omega)
    have hlen₁ : (t.slice i e.start.toNat).length = e.start.toNat - i := by
      rw [Text.length_slice, Nat.min_eq_left (by omega)]
    have hlen₂ : (t.slice e.start.toNat e.stop.toNat).length = e.stop.toNat - e.start.toNat := by
      rw [Text.length_slice, Nat.min_eq_left (by omega)]
    -- the part before the edit holds no place, the replaced part begins with one
    have hbefore : Text.markFrom mark ((e :: rest).map fun x => x.start.toNat) i
        (t.slice i e.start.toNat) = t.slice i e.start.toNat := by
      apply Text.markFrom_eq_self
      intro p hp _
      rw [List.map_cons, List.mem_cons] at hp
      rcases hp with rfl | hp
      · omega
      · have := hlater p hp
        omega
    have hinside : Text.markFrom mark ((e :: rest).map fun x => x.start.toNat) e.start.toNat
        (t.slice e.start.toNat e.stop.toNat) = e.newText := by
      rw [hnew e List.mem_cons_self]
      apply Text.markFrom_eq_append
      · apply List.ne_nil_of_length_pos
        omega
      · simp
      · intro p hp hlt
        rw [List.map_cons, List.mem_cons] at hp
        rcases hp with rfl | hp
        · omega
        · have := hlater p hp
          omega
    have hbehind : Text.markFrom mark ((e :: rest).map fun x => x.start.toNat) e.stop.toNat
        (t.drop e.stop.toNat) = splice t e.stop.toNat rest := by
      rw [htail]
      apply Text.markFrom_congr
      intro p hp _
      rw [List.map_cons, List.mem_cons]
      constructor
      · rintro (rfl | hp')
        · omega
        · exact hp'
      · exact Or.inr
    have hparts : t.drop i =
        t.slice i e.start.toNat ++ (t.slice e.start.toNat e.stop.toNat ++ t.drop e.stop.toNat) := by
      rw [Text.drop_eq_slice_append t (show i ≤ e.start.toNat from by omega),
        Text.drop_eq_slice_append t (show e.start.toNat ≤ e.stop.toNat from by omega)]
    rw [splice, hparts, Text.markFrom_append, Text.markFrom_append, hlen₁, hlen₂,
      show i + (e.start.toNat - i) = e.start.toNat from by omega,
      show e.start.toNat + (e.stop.toNat - e.start.toNat) = e.stop.toNat from by omega,
      hbefore, hinside, hbehind, List.append_assoc]

/-- The offsets at which edits start. -/
def starts (edits : List Edit) : List Nat := edits.map fun e => e.start.toNat

theorem mem_starts {edits : List Edit} {p : Nat} :
    p ∈ starts edits ↔ ∃ e ∈ edits, e.start.toNat = p := List.mem_map

/-- **Edits at a distance that put a mark in front of what they replace insert the mark where
they start.** -/
theorem applyAll_eq_insertAt {mark t : Text} {edits : List Edit}
    (hfit : ∀ e ∈ edits, e.fits t.length = true) (hapart : edits.Pairwise Apart)
    (hnew : ∀ e ∈ edits, e.newText = mark ++ t.slice e.start.toNat e.stop.toNat)
    (hne : ∀ e ∈ edits, e.start < e.stop) :
    applyAll t edits = .ok (t.insertAt mark (starts edits)) := by
  have hperm := List.mergeSort_perm edits le
  have hsorted := pairwise_sorted_of_apart hfit hapart
  have hfit' : ∀ e ∈ edits.mergeSort le, e.fits t.length = true :=
    fun e he => hfit e (hperm.mem_iff.1 he)
  have hzero : ∀ e ∈ edits.mergeSort le, ((0 : Nat) : Int) ≤ e.start := by
    intro e he
    have := fits_iff.1 (hfit' e he)
    omega
  have hend : t.length ∉ starts edits := by
    intro hmem
    obtain ⟨e, he, heq⟩ := mem_starts.1 hmem
    have := fits_iff.1 (hfit e he)
    have := hne e he
    omega
  have hplaces : ∀ p, p ∈ (edits.mergeSort le).map (fun e => e.start.toNat) ↔ p ∈ starts edits :=
    fun p => (hperm.map _).mem_iff
  rw [applyAll, validate_of_apart hfit hapart, Except.map,
    replaceAll_eq_splice hfit' (hsorted.imp Int.le_of_lt) 0 hzero,
    splice_eq_markFrom hfit' hsorted (fun e he => hnew e (hperm.mem_iff.1 he))
      (fun e he => hne e (hperm.mem_iff.1 he)) 0 hzero,
    Text.insertAt, if_neg hend, List.append_nil, List.take_zero, List.nil_append, List.drop_zero,
    Text.markFrom_congr t 0 fun p _ _ => hplaces p]

end Edit

end TreeLint
