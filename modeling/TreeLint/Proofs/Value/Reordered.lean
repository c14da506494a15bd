import Mathlib.Data.List.Forall2
import TreeLint.Proofs.Engine.Contribution
import TreeLint.Proofs.Value.Entries

/-!
# Values in another order

Mappings are compared without regard to the order of their entries. `Value.Reordered` relates two
values if the one comes from the other by putting entries of mappings in another order, at any
depth.

* What is asked of a value without looking at the order in its mappings has the same answer for
  both (`isFlag_eq`, `isStringList_eq`, `str?_eq`, `truthy_eq`, `allScalars_eq`).
* A value without a mapping of two entries has no other order (`Reordered.eq_of_rigid`).
* The mappings themselves have the same keys, with reordered values (`Reordered.entries_reorder`).
* A mapping over another one is reordered when the upper one is (`Entries.Reorders.update`).
-/

namespace TreeLint

namespace Value

/-- The same value with entries of mappings in another order. -/
inductive Reordered : Value → Value → Prop
  | refl (v : Value) : Reordered v v
  | trans {u v w : Value} (h : Reordered u v) (h' : Reordered v w) : Reordered u w
  | perm {es es' : Entries} (h : es.Perm es') : Reordered (.map es) (.map es')
  | entry (before after : Entries) (key : Scalar) {v w : Value} (h : Reordered v w) :
    Reordered (.map (before ++ (key, v) :: after)) (.map (before ++ (key, w) :: after))
  | item (before after : List Value) {v w : Value} (h : Reordered v w) :
    Reordered (.list (before ++ v :: after)) (.list (before ++ w :: after))
  | first (second : Value) {v w : Value} (h : Reordered v w) :
    Reordered (.pair v second) (.pair w second)
  | second (first : Value) {v w : Value} (h : Reordered v w) :
    Reordered (.pair first v) (.pair first w)

/-- No mapping in a value has two entries. -/
inductive Rigid : Value → Prop
  | scalar (s : Scalar) : Rigid (.scalar s)
  | list (items : List Value) (h : ∀ v ∈ items, Rigid v) : Rigid (.list items)
  | pair (first second : Value) (h : Rigid first) (h' : Rigid second) :
    Rigid (.pair first second)
  | empty : Rigid (.map [])
  | single (key : Scalar) (value : Value) (h : Rigid value) : Rigid (.map [(key, value)])

theorem allInItems_eq_all (p : Scalar → Bool) (xs : List Value) :
    allInItems p xs = xs.all (allScalars p) := by
  induction xs with
  | nil => rfl
  | cons x xs ih => rw [allInItems, List.all_cons, ih]

theorem allInEntries_eq_all (p : Scalar → Bool) (es : Entries) :
    allInEntries p es = es.all fun e => p e.1 && e.2.allScalars p := by
  induction es with
  | nil => rfl
  | cons e es ih => rw [allInEntries, List.all_cons, ih]

theorem isShowable_of_mem_entries {v : Value} (h : v.isShowable = true) :
    ∀ e ∈ v.entries?.getD [], e.1.isShowable = true ∧ e.2.isShowable = true := by
  cases v with
  | map es =>
    rw [isShowable, allScalars, allInEntries_eq_all, List.all_eq_true] at h
    exact fun e he => Bool.and_eq_true_iff.1 (h e he)
  | _ => simp [entries?]

end Value

namespace Entries

open Value

variable {base es es' extra extra' : Entries} {r : Value → Value → Prop}

/-! ### Reordered mappings -/

theorem Reorders.map {f : Scalar × Value → Scalar × Value} (h : es.Reorders r es')
    (hf : ∀ a ∈ es, ∀ b, a.1 = b.1 → r a.2 b.2 → (f a).1 = (f b).1 ∧ r (f a).2 (f b).2) :
    Reorders r (es.map f) (es'.map f) := by
  obtain ⟨mid, hmid, hperm⟩ := h
  refine ⟨mid.map f, ?_, hperm.map f⟩
  rw [List.forall₂_map_left_iff, List.forall₂_map_right_iff]
  have hmem : List.Forall₂ (fun a b => a ∈ es ∧ a.1 = b.1 ∧ r a.2 b.2) es mid :=
    (List.forall₂_and_left _ _).2 ⟨fun _ ha => ha, hmid⟩
  exact hmem.imp fun a b hab => hf a hab.1 b hab.2.1 hab.2.2

theorem Reorders.filter {p : Scalar × Value → Bool} (h : es.Reorders r es')
    (hp : ∀ a b, a.1 = b.1 → r a.2 b.2 → p a = p b) :
    Reorders r (es.filter p) (es'.filter p) := by
  obtain ⟨mid, hmid, hperm⟩ := h
  refine ⟨mid.filter p, ?_, hperm.filter p⟩
  refine List.rel_filter ?_ hmid
  intro a b hab
  exact Bool.eq_iff_iff.1 (hp a b hab.1 hab.2)

theorem Reorders.append_right (h : es.Reorders r es') (hr : ∀ v, r v v) (fs : Entries) :
    Reorders r (es ++ fs) (es' ++ fs) := by
  obtain ⟨mid, hmid, hperm⟩ := h
  refine ⟨mid ++ fs, ?_, hperm.append_right fs⟩
  exact List.rel_append hmid (List.forall₂_same.2 fun e _ => ⟨rfl, hr e.2⟩)

/-- **A mapping over another one is reordered when the upper one is.** -/
theorem Reorders.update (h : extra.Reorders Reordered extra') (hbase : base.Distinct)
    (hextra : extra.Distinct) (haligned : base.Aligned extra) :
    Reorders Reordered (base.update extra) (base.update extra') := by
  have haligned' : base.Aligned extra' := by
    intro b hb e' he' hsame
    obtain ⟨e, he, hkey, -⟩ := h.exists_left he'
    rw [← hkey] at hsame ⊢
    exact haligned b hb e he hsame
  -- the same entries of the lower mapping are left
  have hleft : (base.filter fun b => extra.all fun e => !b.1.sameKey e.1) =
      base.filter fun b => extra'.all fun e => !b.1.sameKey e.1 := by
    apply List.filter_congr
    intro b _
    rw [Bool.eq_iff_iff, List.all_eq_true, List.all_eq_true]
    constructor
    · intro hall e' he'
      obtain ⟨e, he, hkey, -⟩ := h.exists_left he'
      rw [← hkey]
      exact hall e he
    · intro hall e he
      obtain ⟨e', he', hkey, -⟩ := h.exists_right he
      rw [hkey]
      exact hall e' he'
  have hperm := perm_update hbase hextra haligned
  have hperm' := perm_update hbase (h.distinct hextra) haligned'
  rw [hleft] at hperm
  have htrans : ∀ u v w, Reordered u v → Reordered v w → Reordered u w := fun _ _ _ => .trans
  refine Reorders.trans htrans (.of_perm .refl hperm) ?_
  exact Reorders.trans htrans (h.append_right .refl _) (.of_perm .refl hperm'.symm)

end Entries

namespace Value

namespace Reordered

variable {v w : Value}

/-- A mapping is reordered if its entries are. -/
theorem of_reorders {es es' : Entries} (h : es.Reorders Reordered es') :
    Reordered (.map es) (.map es') := by
  obtain ⟨mid, hmid, hperm⟩ := h
  -- the values change one after the other
  have hvalues : ∀ before : Entries, Reordered (.map (before ++ es)) (.map (before ++ mid)) := by
    clear hperm
    induction hmid with
    | nil => exact fun before => .refl _
    | @cons a b es mid hab _ ih =>
      intro before
      obtain ⟨k, v⟩ := a
      obtain ⟨k', w⟩ := b
      obtain ⟨rfl, hvalue⟩ := hab
      have hrest := ih (before ++ [(k, w)])
      rw [List.append_assoc, List.append_assoc] at hrest
      exact .trans (.entry before es k hvalue) hrest
  exact .trans (hvalues []) (.perm hperm)

/-- A list is reordered if its items are. -/
theorem of_items {xs ys : List Value} (h : List.Forall₂ Reordered xs ys) :
    Reordered (.list xs) (.list ys) := by
  have hitems : ∀ before : List Value,
      Reordered (.list (before ++ xs)) (.list (before ++ ys)) := by
    induction h with
    | nil => exact fun before => .refl _
    | @cons x y xs ys hxy _ ih =>
      intro before
      have hrest := ih (before ++ [y])
      rw [List.append_assoc, List.append_assoc] at hrest
      exact .trans (.item before xs hxy) hrest
  exact hitems []

theorem symm (h : Reordered v w) : Reordered w v := by
  induction h with
  | refl v => exact .refl v
  | trans _ _ ih ih' => exact .trans ih' ih
  | perm h => exact .perm h.symm
  | entry before after key _ ih => exact .entry before after key ih
  | item before after _ ih => exact .item before after ih
  | first second _ ih => exact .first second ih
  | second first _ ih => exact .second first ih

/-! ### What stays the same -/

/-- Whatever does not look into mappings, lists and pairs stays the same. -/
theorem eq_of_shape {α : Type} {f : Value → α} (hmap : ∀ es es', f (.map es) = f (.map es'))
    (hlist : ∀ xs ys, f (.list xs) = f (.list ys))
    (hpair : ∀ a b a' b', f (.pair a b) = f (.pair a' b')) (h : Reordered v w) : f v = f w := by
  induction h with
  | refl _ => rfl
  | trans _ _ ih ih' => exact ih.trans ih'
  | perm _ => exact hmap _ _
  | entry _ _ _ _ _ => exact hmap _ _
  | item _ _ _ _ => exact hlist _ _
  | first _ _ _ => exact hpair _ _ _ _
  | second _ _ _ => exact hpair _ _ _ _

theorem isString_eq (h : Reordered v w) : v.isString = w.isString :=
  h.eq_of_shape (fun _ _ => rfl) (fun _ _ => rfl) fun _ _ _ _ => rfl

theorem isStringList_eq (h : Reordered v w) : v.isStringList = w.isStringList := by
  induction h with
  | trans _ _ ih ih' => exact ih.trans ih'
  | item before after h _ =>
    simp only [isStringList, List.all_append, List.all_cons, h.isString_eq]
  | _ => rfl

theorem isFlag_eq (h : Reordered v w) : v.isFlag = w.isFlag :=
  h.eq_of_shape (fun _ _ => rfl) (fun _ _ => rfl) fun _ _ _ _ => rfl

theorem str?_eq (h : Reordered v w) : v.str? = w.str? :=
  h.eq_of_shape (fun _ _ => rfl) (fun _ _ => rfl) fun _ _ _ _ => rfl

theorem isMapping_eq (h : Reordered v w) : v.isMapping = w.isMapping :=
  h.eq_of_shape (fun _ _ => rfl) (fun _ _ => rfl) fun _ _ _ _ => rfl

theorem truthy_eq (h : Reordered v w) : v.truthy = w.truthy := by
  induction h with
  | trans _ _ ih ih' => exact ih.trans ih'
  | perm h => simp only [truthy, h.isEmpty_eq]
  | entry before after key h _ => cases before <;> rfl
  | item before after h _ => cases before <;> rfl
  | _ => rfl

/-- The same scalars stand in both. -/
theorem allScalars_eq (p : Scalar → Bool) (h : Reordered v w) :
    v.allScalars p = w.allScalars p := by
  induction h with
  | refl _ => rfl
  | trans _ _ ih ih' => exact ih.trans ih'
  | perm h => simp only [allScalars, allInEntries_eq_all, h.all_eq]
  | entry before after key _ ih =>
    simp only [allScalars, allInEntries_eq_all, List.all_append, List.all_cons, ih]
  | item before after _ ih =>
    simp only [allScalars, allInItems_eq_all, List.all_append, List.all_cons, ih]
  | first second _ ih => simp only [allScalars, ih]
  | second first _ ih => simp only [allScalars, ih]

/-- **A rigid value stays as it is.** -/
theorem eq_of_rigid (h : Reordered v w) (hv : v.Rigid) : v = w := by
  induction h with
  | refl _ => rfl
  | trans _ _ ih ih' =>
    cases ih hv
    exact ih' hv
  | perm h =>
    cases hv with
    | empty => rw [List.nil_perm.1 h]
    | single key value _ => rw [List.singleton_perm.1 h]
  | entry before after key _ ih =>
    generalize hes : before ++ (key, _) :: after = es at hv
    cases hv with
    | empty => simp at hes
    | single key' value hvalue =>
      obtain ⟨rfl, hone⟩ | ⟨-, hnil⟩ := List.append_eq_singleton_iff.1 hes
      · obtain ⟨hentry, rfl⟩ := List.cons.inj hone
        cases hentry
        rw [ih hvalue, List.nil_append]
      · cases hnil
  | item before after _ ih =>
    cases hv with
    | list _ hitems => rw [ih (hitems _ (by simp))]
  | first second _ ih =>
    cases hv with
    | pair _ _ hfirst _ => rw [ih hfirst]
  | second first _ ih =>
    cases hv with
    | pair _ _ _ hsecond => rw [ih hsecond]

/-- The entries of a mapping are reordered. -/
theorem entries_reorder (h : Reordered v w) :
    Entries.Reorders Reordered (v.entries?.getD []) (w.entries?.getD []) := by
  induction h with
  | refl v => exact .of_perm .refl (List.Perm.refl _)
  | trans _ _ ih ih' => exact .trans (fun _ _ _ => .trans) ih ih'
  | perm h => exact .of_perm .refl h
  | entry before after key h _ =>
    refine ⟨_, ?_, List.Perm.refl _⟩
    have hsame : ∀ es : Entries, List.Forall₂ (fun a b => a.1 = b.1 ∧ Reordered a.2 b.2) es es :=
      fun es => List.forall₂_same.2 fun e _ => ⟨rfl, .refl e.2⟩
    exact List.rel_append (hsame before) (.cons ⟨rfl, h⟩ (hsame after))
  | _ => exact .of_perm .refl (List.Perm.refl _)

/-- Only a mapping comes from a mapping. -/
theorem map_left {es : Entries} (h : Reordered (.map es) w) :
    ∃ es', w = .map es' ∧ es.Reorders Reordered es' := by
  obtain ⟨es', rfl⟩ := eq_map_of_isMapping (h.isMapping_eq.symm.trans rfl)
  exact ⟨es', rfl, h.entries_reorder⟩

/-- No key comes to stand twice. -/
theorem wellKeyed (h : Reordered v w) (hv : v.WellKeyed) : w.WellKeyed := by
  induction h with
  | refl v => exact hv
  | trans _ _ ih ih' => exact ih' (ih hv)
  | perm h =>
    cases hv with
    | map _ hdistinct hvalues =>
      exact .map _ (hdistinct.perm h) fun e he => hvalues e (h.mem_iff.2 he)
  | entry before after key _ ih =>
    cases hv with
    | map _ hdistinct hvalues =>
      rw [List.forall_mem_append, List.forall_mem_cons] at hvalues
      refine .map _ (hdistinct.of_keys (by simp)) ?_
      rw [List.forall_mem_append, List.forall_mem_cons]
      exact ⟨hvalues.1, ih hvalues.2.1, hvalues.2.2⟩
  | item before after _ ih =>
    cases hv with
    | list _ hitems =>
      rw [List.forall_mem_append, List.forall_mem_cons] at hitems
      refine .list _ ?_
      rw [List.forall_mem_append, List.forall_mem_cons]
      exact ⟨hitems.1, ih hitems.2.1, hitems.2.2⟩
  | first second _ ih =>
    cases hv with
    | pair _ _ hfirst hsecond => exact .pair _ _ (ih hfirst) hsecond
  | second first _ ih =>
    cases hv with
    | pair _ _ hfirst hsecond => exact .pair _ _ hfirst (ih hsecond)

end Reordered

theorem WellKeyed.object {fields : List (String × Value)} (h : (fields.map Prod.fst).Nodup)
    (h' : ∀ f ∈ fields, f.2.WellKeyed) : (Value.object fields).WellKeyed := by
  refine .map _ ?_ ?_
  · refine List.pairwise_map.2 ((List.pairwise_map.1 h).imp ?_)
    intro f g hne
    rw [Scalar.sameKey_str, decide_eq_false hne]
  · rw [List.forall_mem_map]
    exact h'

theorem WellKeyed.entries {v : Value} (h : v.WellKeyed) :
    Entries.Distinct (v.entries?.getD []) ∧ ∀ e ∈ v.entries?.getD [], e.2.WellKeyed := by
  cases h with
  | map es hdistinct hvalues => exact ⟨hdistinct, hvalues⟩
  | _ =>
    refine ⟨List.Pairwise.nil, ?_⟩
    intro e he
    cases he

end Value

end TreeLint
