import Mathlib.Data.List.Perm.Basic
import TreeLint.Proofs.Edit.Simultaneous

/-!
# Edits applied one at a time

Instead of all at once, the edits of a valid set can be applied one at a time, in any order. Each
one has then to be moved by what the edits applied so far have added to the text in front of it
(`Edit.relocated`), and `Edit.applyEach` takes them so, validating and applying a single edit at
each step.

* `splice_append`, `length_splice` — edits before an offset and edits behind it do not know of each
  other, and the first ones move the offset by what they add;
* `Arranged.exists_parts` — so with and without one edit the text differs in the range of that edit
  only;
* `applyAll_relocated` — the step: applying one more edit, moved, to a text in which some edits
  are applied gives the text in which it is applied with them;
* `applyEach_of_arranged` — the run, by induction on the edits still to be taken;
* `applyEach_eq_applyAll` — so no step fails, and the last text is that of applying all at once.
-/

namespace TreeLint

namespace Edit

/-! ### Moving an edit -/

/-- By how many characters an edit makes a text longer. -/
def growth (e : Edit) : Int := e.newText.length - (e.stop - e.start)

/-- By how many characters several edits together make a text longer. -/
def totalGrowth : List Edit → Int
  | [] => 0
  | e :: rest => e.growth + totalGrowth rest

/-- Whether an edit comes before another one: by its start, then by its end. -/
def precedes (a b : Edit) : Bool :=
  decide (a.start < b.start ∨ a.start = b.start ∧ a.stop < b.stop)

/-- By how many characters the edits already applied have moved an edit: the growth of those that
come before it. -/
def drift (done : List Edit) (e : Edit) : Int :=
  totalGrowth (done.filter fun d => d.precedes e)

/-- An edit where it stands once some others are applied. -/
def relocated (done : List Edit) (e : Edit) : Edit :=
  { e with start := e.start + drift done e, stop := e.stop + drift done e }

/-- Apply edits one at a time, the first of a list first, each where the edits already applied
have moved it. -/
def applyEach : Text → List Edit → List Edit → Except EditError Text
  | t, _, [] => .ok t
  | t, done, e :: rest => do
    let u ← applyAll t [e.relocated done]
    applyEach u (e :: done) rest

theorem totalGrowth_of_perm {edits edits' : List Edit} (h : edits.Perm edits') :
    totalGrowth edits = totalGrowth edits' := by
  induction h with
  | nil => rfl
  | cons e _ ih => rw [totalGrowth, totalGrowth, ih]
  | swap a b rest =>
    simp only [totalGrowth]
    omega
  | trans _ _ ih ih' => exact ih.trans ih'

theorem drift_of_perm {done done' : List Edit} (h : done.Perm done') (e : Edit) :
    drift done e = drift done' e :=
  totalGrowth_of_perm (h.filter _)

/-- An edit is moved by the edits before its place, and by no other. -/
theorem drift_append {n : Nat} {front back : List Edit} {e : Edit}
    (h : Arranged n (front ++ e :: back)) :
    drift (front ++ back) e = totalGrowth front := by
  have hmem : ∀ x ∈ front ++ e :: back, x.start ≤ x.stop :=
    fun x hx => (fits_iff.1 (h.fits x hx)).2.1
  obtain ⟨-, hback, hcross⟩ := List.pairwise_append.1 h.apart
  have hfront : front.filter (fun d => d.precedes e) = front := by
    rw [List.filter_eq_self]
    intro d hd
    have hde := meets_eq_false_iff.1 (hcross d hd e List.mem_cons_self)
    have := hmem d (by simp [hd])
    have := hmem e (by simp)
    rw [precedes, decide_eq_true_eq]
    omega
  have hnone : back.filter (fun d => d.precedes e) = [] := by
    rw [List.filter_eq_nil_iff]
    intro d hd
    have hed := meets_eq_false_iff.1 (List.rel_of_pairwise_cons hback hd)
    have := hmem d (by simp [hd])
    have := hmem e (by simp)
    rw [precedes, decide_eq_true_eq]
    omega
  rw [drift, List.filter_append, hfront, hnone, List.append_nil]

/-! ### Edits before an offset, and behind it -/

/-- The text before the first edit is kept, up to any offset. -/
theorem splice_eq_slice_append {t : Text} {ordered : List Edit} {i j : Nat} (hij : i ≤ j)
    (h : ∀ e ∈ ordered, (j : Int) ≤ e.start) :
    splice t i ordered = t.slice i j ++ splice t j ordered := by
  cases ordered with
  | nil => exact Text.drop_eq_slice_append t hij
  | cons e rest =>
    have hje := h e List.mem_cons_self
    rw [splice, splice, ← Text.slice_append_of_le t hij (show j ≤ e.start.toNat from by omega)]
    simp only [List.append_assoc]

/-- **Edits on the two sides of an offset do not know of each other.** -/
theorem splice_append {t : Text} {front back : List Edit} {i m : Nat} (hi : i ≤ m)
    (hfront : ∀ e ∈ front, e.fits m = true) (hback : ∀ e ∈ back, (m : Int) ≤ e.start) :
    splice t i (front ++ back) = splice (t.take m) i front ++ splice t m back := by
  induction front generalizing i with
  | nil => exact splice_eq_slice_append hi hback
  | cons e rest ih =>
    have he := fits_iff.1 (hfront e List.mem_cons_self)
    have hrest := ih (i := e.stop.toNat) (by omega)
      (fun x hx => hfront x (List.mem_cons_of_mem _ hx))
    have hslice : Text.slice (t.take m) i e.start.toNat = t.slice i e.start.toNat := by
      rw [Text.slice, List.take_take, Nat.min_eq_left (by omega), ← Text.slice]
    rw [List.cons_append, splice, splice, hrest, hslice]
    simp only [List.append_assoc]

/-- Applied edits make a text longer by what each of them adds. -/
theorem length_splice {t : Text} {ordered : List Edit}
    (hfit : ∀ e ∈ ordered, e.fits t.length = true)
    (hord : ordered.Pairwise fun a b => a.stop ≤ b.start) {i : Nat} (hlen : i ≤ t.length)
    (hi : ∀ e ∈ ordered, (i : Int) ≤ e.start) :
    ((splice t i ordered).length : Int) = t.length - i + totalGrowth ordered := by
  induction ordered generalizing i with
  | nil =>
    rw [splice, List.length_drop, totalGrowth]
    omega
  | cons e rest ih =>
    have he := fits_iff.1 (hfit e List.mem_cons_self)
    have hie := hi e List.mem_cons_self
    have hrest := ih (fun x hx => hfit x (List.mem_cons_of_mem _ hx)) hord.of_cons
      (i := e.stop.toNat) (by omega) (by
        intro x hx
        have := List.rel_of_pairwise_cons hord hx
        omega)
    rw [splice, List.length_append, List.length_append, Text.length_slice, totalGrowth, growth]
    omega

/-! ### One more edit -/

/-- Without one of its edits an arranged list gives the same text, but for the range of that edit.
In front of it stands what the edits before it make of the text before it. -/
theorem Arranged.exists_parts {t : Text} {front back : List Edit} {e : Edit}
    (h : Arranged t.length (front ++ e :: back)) :
    ∃ x z : Text, (x.length : Int) = e.start + totalGrowth front ∧
      splice t 0 (front ++ back) = x ++ (t.slice e.start.toNat e.stop.toNat ++ z) ∧
      splice t 0 (front ++ e :: back) = x ++ (e.newText ++ z) := by
  have he := fits_iff.1 (h.fits e (by simp))
  obtain ⟨hfront, hback, hcross⟩ := List.pairwise_append.1 h.stop_le_start
  -- cut at the start of this edit, the text holds the edits in front of it whole
  have hfits : ∀ x ∈ front, x.fits e.start.toNat = true := by
    intro x hx
    have := fits_iff.1 (h.fits x (by simp [hx]))
    have := hcross x hx e List.mem_cons_self
    rw [fits_iff]
    omega
  have hbehind : ∀ x ∈ back, (e.stop.toNat : Int) ≤ x.start := by
    intro x hx
    have := List.rel_of_pairwise_cons hback hx
    omega
  have hfrom : ∀ x ∈ e :: back, (e.start.toNat : Int) ≤ x.start := by
    intro x hx
    rcases List.mem_cons.1 hx with rfl | hx
    · omega
    · have := hbehind x hx
      omega
  have hcut : (t.take e.start.toNat).length = e.start.toNat := List.length_take_of_le (by omega)
  refine ⟨splice (t.take e.start.toNat) 0 front, splice t e.stop.toNat back, ?_, ?_, ?_⟩
  · have hzero : ∀ x ∈ front, ((0 : Nat) : Int) ≤ x.start := fun x hx => (fits_iff.1 (hfits x hx)).1
    rw [length_splice (by rwa [hcut]) hfront (Nat.zero_le _) hzero, hcut]
    omega
  · rw [splice_append (Nat.zero_le _) hfits fun x hx => hfrom x (List.mem_cons_of_mem _ hx),
      splice_eq_slice_append (show e.start.toNat ≤ e.stop.toNat from by omega) hbehind]
  · rw [splice_append (Nat.zero_le _) hfits hfrom, splice, Text.slice, List.drop_take,
      Nat.sub_self, List.take_zero, List.nil_append]

/-- A single edit replaces the middle of a text that consists of three parts. -/
theorem applyAll_middle {e : Edit} {x y z : Text} (hstart : e.start = x.length)
    (hstop : e.stop = x.length + y.length) :
    applyAll (x ++ (y ++ z)) [e] = .ok (x ++ (e.newText ++ z)) := by
  have harranged : Arranged (x ++ (y ++ z)).length [e] := by
    refine ⟨?_, List.pairwise_singleton _ e⟩
    intro d hd
    rw [List.mem_singleton.1 hd, fits_iff]
    simp only [List.length_append]
    omega
  have hfront : e.start.toNat = x.length := by omega
  have hback : e.stop.toNat = x.length + y.length := by omega
  rw [harranged.applyAll_eq (List.Perm.refl _), splice, splice, hfront, hback, Text.slice,
    List.drop_zero, List.take_left, List.drop_length_add_append, List.drop_left, List.append_assoc]

theorem Arranged.sublist {n : Nat} {part ordered : List Edit} (h : Arranged n ordered)
    (hsub : part.Sublist ordered) : Arranged n part :=
  ⟨fun e he => h.fits e (hsub.subset he), h.apart.sublist hsub⟩

/-- **Applying one more edit**, moved to where it stands, to a text in which some edits are applied
is applying it together with them. -/
theorem applyAll_relocated {t : Text} {done ordered : List Edit} {e : Edit}
    (h : Arranged t.length ordered) (hperm : ordered.Perm (e :: done)) :
    ∃ u v, applyAll t done = .ok u ∧ applyAll u [e.relocated done] = .ok v ∧
      applyAll t (e :: done) = .ok v := by
  obtain ⟨front, back, rfl⟩ := List.append_of_mem (hperm.mem_iff.2 List.mem_cons_self)
  have hdone : (front ++ back).Perm done := (List.perm_middle.symm.trans hperm).cons_inv
  have hrest : Arranged t.length (front ++ back) :=
    h.sublist ((List.sublist_cons_self e back).append_left front)
  have hdrift : drift done e = totalGrowth front := by
    rw [← drift_of_perm hdone, drift_append h]
  -- the part in front is as long as the moved start says
  obtain ⟨x, z, hlength, hwithout, hwith⟩ := h.exists_parts
  refine ⟨_, _, hrest.applyAll_eq hdone, ?_, h.applyAll_eq hperm⟩
  rw [hwithout, hwith]
  have he := fits_iff.1 (h.fits e (by simp))
  apply applyAll_middle
  · show e.start + drift done e = x.length
    omega
  · show e.stop + drift done e = x.length + (t.slice e.start.toNat e.stop.toNat).length
    rw [Text.length_slice]
    omega

/-! ### All edits, one after another -/

/-- **The run.** When some edits of a valid set are applied, taking the others one at a time ends
with the text in which all are applied. -/
theorem applyEach_of_arranged {t u : Text} {pending done ordered : List Edit}
    (h : Arranged t.length ordered) (hperm : ordered.Perm (pending ++ done))
    (hu : applyAll t done = .ok u) : applyEach u done pending = .ok (splice t 0 ordered) := by
  induction pending generalizing u done with
  | nil =>
    rw [applyEach, ← hu]
    exact h.applyAll_eq hperm
  | cons e rest ih =>
    -- the edits applied after this step are some of the arranged ones
    have hsub : (e :: done).Subperm ordered :=
      (((List.nil_sublist rest).append_right done).cons_cons e).subperm.trans hperm.symm.subperm
    obtain ⟨part, hpart, hsublist⟩ := hsub
    obtain ⟨u', v, hu', hv, hv'⟩ := applyAll_relocated (h.sublist hsublist) hpart
    obtain rfl : u = u' := Except.ok.inj (hu.symm.trans hu')
    have hrest := ih (hperm.trans List.perm_middle.symm) hv'
    rw [applyEach, hv]
    exact hrest

/-- **One at a time is all at once.** The edits of a valid set, taken in any order and each moved by
what the edits taken before it have added to the text in front of it, can be applied one by one, and
the last text is the one that applying them all at once gives. -/
theorem applyEach_eq_applyAll {t : Text} {edits ordered taken : List Edit}
    (h : validate t edits = .ok ordered) (htaken : taken.Perm edits) :
    ∃ u, applyAll t edits = .ok u ∧ applyEach t [] taken = .ok u := by
  obtain ⟨harranged, hperm⟩ := validate_eq_ok_iff.1 h
  refine ⟨splice t 0 ordered, harranged.applyAll_eq hperm, ?_⟩
  apply applyEach_of_arranged harranged _ (applyAll_nil t)
  rw [List.append_nil]
  exact hperm.trans htaken.symm

/-- The touching edits, taken from the last insertion over the first deletion to the middle. -/
def touchingTaken : List Edit :=
  [⟨4, 4, "w".toList, ""⟩, ⟨0, 2, [], ""⟩, ⟨2, 4, "XYZ".toList, ""⟩, ⟨2, 2, "v".toList, ""⟩]

/-- Taken one at a time, the touching edits are moved back by the deletion, and the result is the
same. -/
theorem touchingTaken_applied :
    validate "abcdef".toList touchingEdits = .ok touchingInOrder ∧
      touchingTaken.Perm touchingEdits ∧
      applyEach "abcdef".toList [] touchingTaken = .ok "vXYZwef".toList := by
  have hperm : touchingTaken.Perm touchingEdits := by decide
  obtain ⟨u, hall, heach⟩ := applyEach_eq_applyAll validate_touchingEdits hperm
  have hresult : applyAll "abcdef".toList touchingEdits = .ok "vXYZwef".toList := by
    rw [applyAll, validate_touchingEdits]
    exact congrArg Except.ok (show replaceAll touchingInOrder _ = _ from by decide)
  rw [hresult] at hall
  rw [heach, ← hall]
  exact ⟨validate_touchingEdits, hperm, rfl⟩

end Edit

end TreeLint
