import Mathlib.Data.List.Perm.Basic
import TreeLint.Value.Basic

/-!
# Entries as mappings

Entries stand for a mapping when no key is met twice (`Entries.Distinct`). Putting an entry keeps
this (`Distinct.put`), and then a mapping laid over another one holds its own entries and those of
the other whose keys it has not (`perm_update`). Under a name this says that the upper mapping is
asked first (`get?_str_update`), and over a mapping of names alone it says so under every key
(`get?_update_of_names`).

Numbers are the same key as floats of their value, so a mapping may hold a key in another form
than the one that is looked for. Names have one form, and two mappings are `Aligned` if this is so
for all keys that they share.
-/

namespace TreeLint

theorem Binary64.equals_comm (x y : Binary64) : x.equals y = y.equals x := by
  cases x with
  | finite s m e =>
    cases y with
    | finite s' m' e' =>
      rw [Bool.eq_iff_iff]
      simp only [equals, Bool.and_eq_true, Bool.or_eq_true, beq_iff_eq]
      constructor
      · rintro ⟨⟨rfl, rfl⟩, hsign⟩
        exact ⟨⟨rfl, rfl⟩, hsign.imp_right Eq.symm⟩
      · rintro ⟨⟨rfl, rfl⟩, hsign⟩
        exact ⟨⟨rfl, rfl⟩, hsign.imp_right Eq.symm⟩
    | _ => rfl
  | infinite s =>
    cases y with
    | infinite s' => exact Bool.beq_comm
    | _ => rfl
  | nan => cases y <;> rfl

namespace Scalar

theorem sameKey_comm (a b : Scalar) : a.sameKey b = b.sameKey a := by
  unfold sameKey
  cases ha : a.int? with
  | some m =>
    cases hb : b.int? with
    | some n => exact Bool.beq_comm
    | none => rfl
  | none =>
    cases hb : b.int? with
    | some n => rfl
    | none =>
      cases a <;> cases b <;> first | exact Bool.beq_comm | exact Binary64.equals_comm _ _

@[simp] theorem sameKey_str_iff {a : Scalar} {s : String} :
    a.sameKey (.str s) = true ↔ a = .str s := by
  cases a <;> simp [sameKey, int?]

end Scalar

namespace Entries

variable {es base extra : Entries} {key : Scalar} {value : Value} {s : String}

/-! ### One entry -/

theorem get?_cons (key k : Scalar) (v : Value) (rest : Entries) :
    get? key ((k, v) :: rest) = if k.sameKey key then some v else get? key rest := rfl

theorem put_cons (key k : Scalar) (value v : Value) (rest : Entries) :
    put key value ((k, v) :: rest) =
      if k.sameKey key then (k, value) :: rest else (k, v) :: put key value rest := rfl

theorem exists_key_of_get? (h : get? key es = some value) :
    ∃ k, (k, value) ∈ es ∧ k.sameKey key = true := by
  induction es with
  | nil => cases h
  | cons e es ih =>
    obtain ⟨k, v⟩ := e
    rw [get?_cons] at h
    split at h
    · rename_i hsame
      cases h
      exact ⟨k, List.mem_cons_self, hsame⟩
    · obtain ⟨k', hmem, hsame⟩ := ih h
      exact ⟨k', List.mem_cons_of_mem _ hmem, hsame⟩

theorem get?_eq_none (h : ∀ e ∈ es, key.sameKey e.1 = false) : get? key es = none := by
  rw [Option.eq_none_iff_forall_ne_some]
  intro value hvalue
  obtain ⟨k, hmem, hsame⟩ := exists_key_of_get? hvalue
  rw [Scalar.sameKey_comm, h _ hmem] at hsame
  cases hsame

theorem get?_str_cons (s : String) (k : Scalar) (v : Value) (rest : Entries) :
    get? (.str s) ((k, v) :: rest) = if k = .str s then some v else get? (.str s) rest := by
  simp only [get?_cons, Scalar.sameKey_str_iff]

theorem get?_append (key : Scalar) (es es' : Entries) :
    get? key (es ++ es') = (get? key es).or (get? key es') := by
  induction es with
  | nil => rfl
  | cons e es ih =>
    obtain ⟨k, v⟩ := e
    rw [List.cons_append, get?_cons, get?_cons, ih]
    split <;> rfl

/-- A new key is put behind all entries. -/
theorem put_of_new (h : ∀ e ∈ es, e.1.sameKey key = false) (value : Value) :
    put key value es = es ++ [(key, value)] := by
  induction es with
  | nil => rfl
  | cons e es ih =>
    obtain ⟨k, v⟩ := e
    obtain ⟨hfirst, hrest⟩ := List.forall_mem_cons.1 h
    rw [put_cons, hfirst, if_neg Bool.false_ne_true, ih hrest, List.cons_append]

/-- What stands under a name after an entry is put. -/
theorem get?_str_put (s : String) (key : Scalar) (value : Value) (es : Entries) :
    get? (.str s) (put key value es) = if key = .str s then some value else get? (.str s) es := by
  induction es with
  | nil => exact get?_str_cons s key value []
  | cons e es ih =>
    obtain ⟨k, v⟩ := e
    rw [put_cons]
    by_cases hsame : k.sameKey key = true
    · rw [if_pos hsame, get?_str_cons, get?_str_cons]
      have hkey : k = .str s ↔ key = .str s := by
        constructor
        · rintro rfl
          rw [Scalar.sameKey_comm] at hsame
          exact Scalar.sameKey_str_iff.1 hsame
        · rintro rfl
          exact Scalar.sameKey_str_iff.1 hsame
      simp only [hkey]
      split <;> rfl
    · rw [if_neg hsame, get?_str_cons, get?_str_cons, ih]
      by_cases hk : k = .str s
      · have hne : ¬ key = .str s := by
          rintro rfl
          exact hsame (Scalar.sameKey_str_iff.2 hk)
        rw [if_pos hk, if_pos hk, if_neg hne]
      · rw [if_neg hk, if_neg hk]

theorem mem_put {e : Scalar × Value} (h : e ∈ put key value es) : e.2 = value ∨ e ∈ es := by
  induction es with
  | nil =>
    rw [put, List.mem_singleton] at h
    exact Or.inl (congrArg Prod.snd h)
  | cons x es ih =>
    obtain ⟨k, v⟩ := x
    rw [put_cons] at h
    split at h
    · rcases List.mem_cons.1 h with rfl | hmem
      · exact Or.inl rfl
      · exact Or.inr (List.mem_cons_of_mem _ hmem)
    · rcases List.mem_cons.1 h with rfl | hmem
      · exact Or.inr List.mem_cons_self
      · exact (ih hmem).imp_right (List.mem_cons_of_mem _)

/-- The key of an entry that is put stands in the old entries or is the given one. -/
theorem key_mem_put {e : Scalar × Value} (h : e ∈ put key value es) :
    e.1 = key ∨ ∃ x ∈ es, x.1 = e.1 := by
  induction es with
  | nil =>
    rw [put, List.mem_singleton] at h
    exact Or.inl (congrArg Prod.fst h)
  | cons x es ih =>
    obtain ⟨k, v⟩ := x
    rw [put_cons] at h
    split at h
    · rcases List.mem_cons.1 h with rfl | hmem
      · exact Or.inr ⟨(k, v), List.mem_cons_self, rfl⟩
      · exact Or.inr ⟨e, List.mem_cons_of_mem _ hmem, rfl⟩
    · rcases List.mem_cons.1 h with rfl | hmem
      · exact Or.inr ⟨(k, v), List.mem_cons_self, rfl⟩
      · exact (ih hmem).imp_right fun ⟨x, hx, hkey⟩ => ⟨x, List.mem_cons_of_mem _ hx, hkey⟩

/-! ### Distinct keys -/

/-- No key is met twice. -/
def Distinct (es : Entries) : Prop := es.Pairwise fun a b => a.1.sameKey b.1 = false

theorem Distinct.cons_iff {e : Scalar × Value} :
    Distinct (e :: es) ↔ (∀ x ∈ es, e.1.sameKey x.1 = false) ∧ es.Distinct := List.pairwise_cons

theorem Distinct.perm {es' : Entries} (h : es.Distinct) (hperm : es.Perm es') : es'.Distinct :=
  hperm.pairwise h fun hxy => Scalar.sameKey_comm _ _ ▸ hxy

/-- Being distinct is about the keys alone. -/
theorem Distinct.of_keys {es' : Entries} (h : es.Distinct)
    (hkeys : es'.map Prod.fst = es.map Prod.fst) : es'.Distinct := by
  have hpairs : (es.map Prod.fst).Pairwise fun a b => a.sameKey b = false := List.pairwise_map.2 h
  rw [← hkeys] at hpairs
  exact List.pairwise_map.1 hpairs

/-- **Putting an entry keeps the keys distinct.** -/
theorem Distinct.put (h : es.Distinct) (key : Scalar) (value : Value) :
    (Entries.put key value es).Distinct := by
  induction es with
  | nil => exact List.pairwise_singleton _ _
  | cons e es ih =>
    obtain ⟨k, v⟩ := e
    obtain ⟨hfirst, hrest⟩ := Distinct.cons_iff.1 h
    rw [put_cons]
    by_cases hsame : k.sameKey key = true
    · rw [if_pos hsame]
      exact Distinct.cons_iff.2 ⟨hfirst, hrest⟩
    · rw [if_neg hsame]
      refine Distinct.cons_iff.2 ⟨?_, ih hrest⟩
      intro x hx
      rcases key_mem_put hx with hkey | ⟨y, hy, hkey⟩
      · rw [hkey]
        exact Bool.not_eq_true _ ▸ hsame
      · rw [← hkey]
        exact hfirst y hy

theorem Distinct.update (h : base.Distinct) (extra : Entries) : (base.update extra).Distinct := by
  induction extra generalizing base with
  | nil => exact h
  | cons e rest ih => exact ih (h.put e.1 e.2)

/-- In a mapping, what is found under a name is what stands there. -/
theorem Distinct.get?_str_eq_some (h : es.Distinct) :
    get? (.str s) es = some value ↔ (.str s, value) ∈ es := by
  induction es with
  | nil => simp
  | cons e es ih =>
    obtain ⟨k, v⟩ := e
    obtain ⟨hfirst, hrest⟩ := Distinct.cons_iff.1 h
    rw [get?_str_cons, List.mem_cons]
    by_cases hk : k = .str s
    · subst hk
      have hnot : (Scalar.str s, value) ∉ es := fun hmem =>
        absurd (Scalar.sameKey_str_iff.2 rfl) (Bool.not_eq_true _ ▸ hfirst _ hmem)
      simp only [if_pos, hnot, or_false, Option.some.injEq, Prod.mk.injEq, true_and]
      exact eq_comm
    · have hne : (Scalar.str s, value) ≠ (k, v) := fun heq => hk (congrArg Prod.fst heq).symm
      simp only [if_neg hk, ih hrest, hne, false_or]

/-- Putting an entry leaves the other keys alone. -/
theorem get?_put_of_ne {key' : Scalar} (hne : key.sameKey key' = false)
    (hform : ∀ b ∈ es, b.1.sameKey key = true → b.1 = key) (value : Value) :
    get? key' (put key value es) = get? key' es := by
  induction es with
  | nil => rw [put, get?_cons, hne, if_neg Bool.false_ne_true]
  | cons b es ih =>
    obtain ⟨k, v⟩ := b
    rw [put_cons]
    by_cases hsame : k.sameKey key = true
    · have hk : k = key := hform (k, v) List.mem_cons_self hsame
      rw [if_pos hsame, get?_cons, get?_cons, hk, hne, if_neg Bool.false_ne_true,
        if_neg Bool.false_ne_true]
    · rw [if_neg hsame, get?_cons, get?_cons, ih fun b hb => hform b (List.mem_cons_of_mem _ hb)]

/-! ### A mapping over another one -/

theorem update_cons (base : Entries) (e : Scalar × Value) (rest : Entries) :
    base.update (e :: rest) = (put e.1 e.2 base).update rest := rfl

/-- New entries are put behind the old ones. -/
theorem update_of_new (hextra : extra.Distinct)
    (h : ∀ b ∈ base, ∀ e ∈ extra, b.1.sameKey e.1 = false) :
    base.update extra = base ++ extra := by
  induction extra generalizing base with
  | nil => exact (List.append_nil base).symm
  | cons x rest ih =>
    obtain ⟨hfirst, hrest⟩ := Distinct.cons_iff.1 hextra
    rw [update_cons, put_of_new fun b hb => h b hb x List.mem_cons_self, ih hrest,
      List.append_assoc]
    · rfl
    · intro b hb e he
      rcases List.mem_append.1 hb with hold | hlast
      · exact h b hold e (List.mem_cons_of_mem _ he)
      · rw [List.mem_singleton.1 hlast]
        exact hfirst e he

/-- **The upper mapping is asked first.** -/
theorem get?_str_update (base : Entries) (hextra : extra.Distinct) (s : String) :
    get? (.str s) (base.update extra) = (get? (.str s) extra).or (get? (.str s) base) := by
  induction extra generalizing base with
  | nil => rfl
  | cons e rest ih =>
    obtain ⟨k, v⟩ := e
    obtain ⟨hfirst, hrest⟩ := Distinct.cons_iff.1 hextra
    rw [update_cons, ih _ hrest, get?_str_put, get?_str_cons]
    by_cases hk : k = .str s
    · have hnone : get? (.str s) rest = none := get?_eq_none (hk ▸ hfirst)
      rw [if_pos hk, if_pos hk, hnone]
      rfl
    · rw [if_neg hk, if_neg hk]

theorem mem_update {e : Scalar × Value} (h : e ∈ base.update extra) :
    (∃ x ∈ extra, x.2 = e.2) ∨ e ∈ base := by
  induction extra generalizing base with
  | nil => exact Or.inr h
  | cons x rest ih =>
    rcases ih h with ⟨y, hy, hvalue⟩ | hmem
    · exact Or.inl ⟨y, List.mem_cons_of_mem _ hy, hvalue⟩
    · exact (mem_put hmem).imp_left fun hvalue => ⟨x, List.mem_cons_self, hvalue.symm⟩

/-- A key in both mappings is written in the same way. -/
def Aligned (base extra : Entries) : Prop :=
  ∀ b ∈ base, ∀ e ∈ extra, b.1.sameKey e.1 = true → b.1 = e.1

/-- A name can be written in one way only. -/
theorem aligned_of_names (hbase : ∀ b ∈ base, ∃ name, b.1 = .str name) (extra : Entries) :
    base.Aligned extra := by
  intro b hb e _ hsame
  obtain ⟨name, hname⟩ := hbase b hb
  rw [hname, Scalar.sameKey_comm, Scalar.sameKey_str_iff] at hsame
  rw [hname, hsame]

theorem Aligned.put {x : Scalar × Value} {rest : Entries} (h : base.Aligned (x :: rest))
    (hextra : Distinct (x :: rest)) (value : Value) :
    (Entries.put x.1 value base).Aligned rest := by
  intro b hb e he hsame
  rcases key_mem_put hb with hkey | ⟨y, hy, hkey⟩
  · rw [hkey, (Distinct.cons_iff.1 hextra).1 e he] at hsame
    cases hsame
  · rw [← hkey] at hsame ⊢
    exact h y hy e (List.mem_cons_of_mem _ he) hsame

theorem perm_put (h : es.Distinct) (value : Value)
    (hform : ∀ b ∈ es, b.1.sameKey key = true → b.1 = key) :
    (put key value es).Perm ((key, value) :: es.filter fun b => !b.1.sameKey key) := by
  induction es with
  | nil => exact List.Perm.refl _
  | cons b es ih =>
    obtain ⟨k, v⟩ := b
    obtain ⟨hfirst, hrest⟩ := Distinct.cons_iff.1 h
    rw [put_cons, List.filter_cons]
    by_cases hsame : k.sameKey key = true
    · have hk : k = key := hform (k, v) List.mem_cons_self hsame
      have hself : es.filter (fun b => !b.1.sameKey key) = es := by
        rw [List.filter_eq_self]
        intro x hx
        rw [← hk, Scalar.sameKey_comm, hfirst x hx]
        rfl
      subst hk
      simp only [hsame, Bool.not_true, Bool.false_eq_true, if_false, if_true, hself]
      exact List.Perm.refl _
    · have hperm := ih hrest fun b hb => hform b (List.mem_cons_of_mem _ hb)
      simp only [hsame, Bool.false_eq_true, if_false, Bool.not_false, if_true]
      exact (hperm.cons _).trans (List.Perm.swap _ _ _)

/-- Under a key that is no name, the upper mapping adds what it has to the end. -/
theorem get?_update_of_not_name (hkey : ∀ s, key ≠ .str s) (hextra : extra.Distinct)
    (hnames : ∀ b ∈ base, ∀ e ∈ extra, b.1.sameKey e.1 = true → ∃ name, e.1 = .str name) :
    get? key (base.update extra) = (get? key base).or (get? key extra) := by
  induction extra generalizing base with
  | nil => exact Option.or_none.symm
  | cons x rest ih =>
    obtain ⟨k, v⟩ := x
    obtain ⟨hfirst, hrest⟩ := Distinct.cons_iff.1 hextra
    rw [update_cons]
    by_cases hk : ∃ name, k = .str name
    · -- a name is never the key that is looked for
      obtain ⟨name, rfl⟩ := hk
      have hother : (Scalar.str name).sameKey key = false := by
        rw [Scalar.sameKey_comm, ← Bool.not_eq_true, Scalar.sameKey_str_iff]
        exact hkey name
      rw [ih hrest, get?_put_of_ne hother fun b _ hsame => Scalar.sameKey_str_iff.1 hsame,
        get?_cons, hother, if_neg Bool.false_ne_true]
      intro b hb e he hsame
      rcases key_mem_put hb with hput | ⟨y, hy, hput⟩
      · rw [hput, hfirst e he] at hsame
        cases hsame
      · exact hnames y hy e (List.mem_cons_of_mem _ he) (hput ▸ hsame)
    · have hnew : ∀ b ∈ base, b.1.sameKey k = false := by
        intro b hb
        rw [← Bool.not_eq_true]
        exact fun hsame => hk (hnames b hb _ List.mem_cons_self hsame)
      rw [put_of_new hnew, ih hrest, get?_append, Option.or_assoc, ← get?_append]
      · rfl
      · intro b hb e he hsame
        rcases List.mem_append.1 hb with hold | hlast
        · exact hnames b hold e (List.mem_cons_of_mem _ he) hsame
        · rw [List.mem_singleton.1 hlast, hfirst e he] at hsame
          cases hsame

/-- Among names, nothing but a name is found. -/
theorem get?_eq_none_of_names (hnames : ∀ e ∈ es, ∃ name, e.1 = .str name)
    (hkey : ∀ s, key ≠ .str s) : get? key es = none := by
  apply get?_eq_none
  intro e he
  obtain ⟨name, hname⟩ := hnames e he
  rw [hname, ← Bool.not_eq_true, Scalar.sameKey_str_iff]
  exact hkey name

/-- **Over a mapping of names, the upper mapping is asked first**, whatever the key. -/
theorem get?_update_of_names (hbase : ∀ b ∈ base, ∃ name, b.1 = .str name)
    (hextra : extra.Distinct) (key : Scalar) :
    get? key (base.update extra) = (get? key extra).or (get? key base) := by
  by_cases hkey : ∃ s, key = .str s
  · obtain ⟨s, rfl⟩ := hkey
    exact get?_str_update base hextra s
  · rw [not_exists] at hkey
    have hnone : get? key base = none := get?_eq_none_of_names hbase hkey
    rw [get?_update_of_not_name hkey hextra, hnone, Option.or_none, Option.none_or]
    intro b hb e _ hsame
    obtain ⟨name, hname⟩ := hbase b hb
    rw [hname, Scalar.sameKey_comm, Scalar.sameKey_str_iff] at hsame
    exact ⟨name, hsame⟩

/-- **A mapping over another one** has its own entries and those under other keys. -/
theorem perm_update (hbase : base.Distinct) (hextra : extra.Distinct)
    (haligned : base.Aligned extra) :
    (base.update extra).Perm
      (extra ++ base.filter fun b => extra.all fun e => !b.1.sameKey e.1) := by
  induction extra generalizing base with
  | nil =>
    rw [update_nil, List.nil_append, List.filter_eq_self.2]
    exact fun _ _ => rfl
  | cons x rest ih =>
    obtain ⟨hfirst, hrest⟩ := Distinct.cons_iff.1 hextra
    have hput := perm_put hbase x.2 fun b hb => haligned b hb x List.mem_cons_self
    have hkept : (rest.all fun e => !x.1.sameKey e.1) = true := by
      rw [List.all_eq_true]
      intro e he
      rw [hfirst e he]
      rfl
    have hfilter : ((x.1, x.2) :: base.filter fun b => !b.1.sameKey x.1).filter
        (fun b => rest.all fun e => !b.1.sameKey e.1) =
          x :: base.filter fun b => (x :: rest).all fun e => !b.1.sameKey e.1 := by
      rw [List.filter_cons, if_pos hkept, List.filter_filter]
      simp only [List.all_cons, Bool.and_comm]
    rw [update_cons]
    have hrun := ih (hbase.put x.1 x.2) hrest (haligned.put hextra x.2)
    have hfiltered := (hput.filter fun b => rest.all fun e => !b.1.sameKey e.1).append_left rest
    rw [hfilter] at hfiltered
    exact (hrun.trans hfiltered).trans List.perm_middle

/-- Nothing is left of a mapping if all its keys stand in the one over it. -/
theorem perm_update_of_covered (hbase : base.Distinct) (hextra : extra.Distinct)
    (haligned : base.Aligned extra) (hcovered : ∀ b ∈ base, ∃ e ∈ extra, b.1.sameKey e.1 = true) :
    (base.update extra).Perm extra := by
  have hnone : (base.filter fun b => extra.all fun e => !b.1.sameKey e.1) = [] := by
    rw [List.filter_eq_nil_iff]
    intro b hb hall
    obtain ⟨e, he, hsame⟩ := hcovered b hb
    have hdiffers := List.all_eq_true.1 hall e he
    rw [hsame] at hdiffers
    cases hdiffers
  simpa [hnone] using perm_update hbase hextra haligned

/-! ### The same data -/

/-- The same keys in another order, each with a value that is related to the old one. -/
def Reorders (r : Value → Value → Prop) (es es' : Entries) : Prop :=
  ∃ mid, List.Forall₂ (fun a b => a.1 = b.1 ∧ r a.2 b.2) es mid ∧ mid.Perm es'

variable {r r' : Value → Value → Prop} {es' : Entries}

theorem Reorders.of_perm (hr : ∀ v, r v v) (h : es.Perm es') : es.Reorders r es' :=
  ⟨es, List.forall₂_same.2 fun e _ => ⟨rfl, hr e.2⟩, h⟩

theorem Reorders.trans {es'' : Entries} (hr : ∀ u v w, r u v → r v w → r u w)
    (h : es.Reorders r es') (h' : es'.Reorders r es'') : es.Reorders r es'' := by
  obtain ⟨mid, hmid, hperm⟩ := h
  obtain ⟨mid', hmid', hperm'⟩ := h'
  -- reorder the first way before the values change the second time
  obtain ⟨next, hnext, hperm''⟩ := List.perm_comp_forall₂ hperm hmid'
  refine ⟨next, ?_, hperm''.trans hperm'⟩
  clear hperm hperm' hperm'' hmid'
  induction hmid generalizing next with
  | nil =>
    cases hnext
    exact List.Forall₂.nil
  | cons hab _ ih =>
    cases hnext with
    | cons hbc hrest =>
      exact List.Forall₂.cons ⟨hab.1.trans hbc.1, hr _ _ _ hab.2 hbc.2⟩ (ih _ hrest)

theorem exists_of_forall₂ {α β : Type} {R : α → β → Prop} {xs : List α} {ys : List β}
    (h : List.Forall₂ R xs ys) {x : α} (hx : x ∈ xs) : ∃ y ∈ ys, R x y := by
  induction h with
  | nil => cases hx
  | cons hxy _ ih =>
    rcases List.mem_cons.1 hx with rfl | hmem
    · exact ⟨_, List.mem_cons_self, hxy⟩
    · obtain ⟨y, hy, hrel⟩ := ih hmem
      exact ⟨y, List.mem_cons_of_mem _ hy, hrel⟩

theorem Reorders.exists_right (h : es.Reorders r es') {e : Scalar × Value} (he : e ∈ es) :
    ∃ e' ∈ es', e.1 = e'.1 ∧ r e.2 e'.2 := by
  obtain ⟨mid, hmid, hperm⟩ := h
  obtain ⟨e', he', hrel⟩ := exists_of_forall₂ hmid he
  exact ⟨e', hperm.subset he', hrel⟩

theorem Reorders.exists_left (h : es.Reorders r es') {e' : Scalar × Value} (he : e' ∈ es') :
    ∃ e ∈ es, e.1 = e'.1 ∧ r e.2 e'.2 := by
  obtain ⟨mid, hmid, hperm⟩ := h
  exact exists_of_forall₂ (List.Forall₂.flip hmid) (hperm.symm.subset he)

theorem Reorders.distinct (h : es.Reorders r es') (hes : es.Distinct) : es'.Distinct := by
  obtain ⟨mid, hmid, hperm⟩ := h
  have hkeys : mid.map Prod.fst = es.map Prod.fst := by
    clear hperm hes
    induction hmid with
    | nil => rfl
    | cons hab _ ih => rw [List.map_cons, List.map_cons, hab.1, ih]
  exact (hes.of_keys hkeys).perm hperm

/-- What is found under a name is related, too. -/
theorem Reorders.get?_str (h : es.Reorders r es') (hes : es.Distinct) (s : String) :
    Option.Rel r (get? (.str s) es) (get? (.str s) es') := by
  have hes' := h.distinct hes
  cases hv : get? (.str s) es with
  | some v =>
    obtain ⟨⟨k, w⟩, hmem, hkey, hrel⟩ := h.exists_right (hes.get?_str_eq_some.1 hv)
    cases hkey
    rw [hes'.get?_str_eq_some.2 hmem]
    exact .some hrel
  | none =>
    cases hw : get? (.str s) es' with
    | none => exact .none
    | some w =>
      obtain ⟨⟨k, v⟩, hmem, hkey, -⟩ := h.exists_left (hes'.get?_str_eq_some.1 hw)
      cases hkey
      rw [hes.get?_str_eq_some.2 hmem] at hv
      cases hv

end Entries

namespace Value

mutual
/-- Whether two values are equal. -/
def decEq : (v w : Value) → Decidable (v = w)
  | .scalar a, .scalar b => decidable_of_iff (a = b) (by simp only [scalar.injEq])
  | .list xs, .list ys =>
    @decidable_of_iff _ (xs = ys) (by simp only [list.injEq]) (decEqItems xs ys)
  | .pair a b, .pair a' b' =>
    @decidable_of_iff _ (a = a' ∧ b = b') (by simp only [pair.injEq])
      (@instDecidableAnd _ _ (decEq a a') (decEq b b'))
  | .map es, .map es' =>
    @decidable_of_iff _ (es = es') (by simp only [map.injEq]) (decEqEntries es es')
  | .scalar _, .list _ | .scalar _, .pair _ _ | .scalar _, .map _ | .list _, .scalar _
  | .list _, .pair _ _ | .list _, .map _ | .pair _ _, .scalar _ | .pair _ _, .list _
  | .pair _ _, .map _ | .map _, .scalar _ | .map _, .list _ | .map _, .pair _ _ =>
    isFalse (by simp only [reduceCtorEq, not_false_eq_true])
/-- Whether two lists of values are equal. -/
def decEqItems : (xs ys : List Value) → Decidable (xs = ys)
  | [], [] => isTrue rfl
  | x :: xs, y :: ys =>
    @decidable_of_iff _ (x = y ∧ xs = ys) (by simp only [List.cons.injEq])
      (@instDecidableAnd _ _ (decEq x y) (decEqItems xs ys))
  | [], _ :: _ | _ :: _, [] => isFalse (by simp only [reduceCtorEq, not_false_eq_true])
/-- Whether two lists of entries are equal. -/
def decEqEntries : (es es' : List (Scalar × Value)) → Decidable (es = es')
  | [], [] => isTrue rfl
  | (k, v) :: es, (k', v') :: es' =>
    @decidable_of_iff _ ((k = k' ∧ v = v') ∧ es = es')
      (by simp only [List.cons.injEq, Prod.mk.injEq])
      (@instDecidableAnd _ _ (@instDecidableAnd _ _ inferInstance (decEq v v'))
        (decEqEntries es es'))
  | [], _ :: _ | _ :: _, [] => isFalse (by simp only [reduceCtorEq, not_false_eq_true])
end

instance : DecidableEq Value := decEq

/-- No mapping in a value has the same key twice. -/
inductive WellKeyed : Value → Prop
  | scalar (s : Scalar) : WellKeyed (.scalar s)
  | list (items : List Value) (h : ∀ v ∈ items, WellKeyed v) : WellKeyed (.list items)
  | pair (first second : Value) (h : WellKeyed first) (h' : WellKeyed second) :
    WellKeyed (.pair first second)
  | map (entries : Entries) (h : entries.Distinct) (h' : ∀ e ∈ entries, WellKeyed e.2) :
    WellKeyed (.map entries)

end Value

end TreeLint
