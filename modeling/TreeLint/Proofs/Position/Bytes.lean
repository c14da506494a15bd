import Mathlib.Algebra.GroupWithZero.Nat
import TreeLint.Proofs.Position.Rank

/-!
# Bytes and characters

A parser counts bytes and a text counts characters. `Text.byteLength` is the number of UTF-8
bytes of a text, and the byte at which the character at offset `o` starts is the byte length of
the first `o` characters. The index of a text has two ways to get there, the identity for an
ASCII text and a table for any other. Both meet one specification:

* `le_offsetOfByte_iff` — an offset is at most that of a byte exactly when its character starts
  at or before the byte;
* `offsetOfByte_mono`, `offsetOfByte_le` — so offsets follow the order of the bytes and stay in
  the text;
* `offsetOfByte_byteLength_take` — the byte at which a character starts leads back to it;
* `offsetOfByte_append` — text around a text moves the offsets of its bytes by the number of
  characters in front;
* `byteOfOffset_eq` — the byte of an offset is the byte length of what stands before it.

A table for an ASCII text would give the same (`offsetOfByte_tabled`, `byteOfOffset_tabled`).
-/

namespace TreeLint

namespace Text

/-- The number of UTF-8 bytes of a text. -/
def byteLength : Text → Nat
  | [] => 0
  | c :: rest => c.utf8Size + byteLength rest

@[simp] theorem byteLength_nil : byteLength [] = 0 := rfl

@[simp] theorem byteLength_cons (c : Char) (t : Text) :
    byteLength (c :: t) = c.utf8Size + byteLength t := rfl

@[simp] theorem byteLength_append (s t : Text) :
    byteLength (s ++ t) = byteLength s + byteLength t := by
  induction s with
  | nil => simp
  | cons c s ih =>
    simp only [List.cons_append, byteLength_cons, ih]
    omega

theorem byteLength_eq_sum (t : Text) : byteLength t = (t.map Char.utf8Size).sum := by
  induction t with
  | nil => rfl
  | cons c t ih => rw [byteLength_cons, ih, List.map_cons, List.sum_cons]

/-- Every character takes a byte at least. -/
theorem length_le_byteLength (t : Text) : t.length ≤ byteLength t := by
  induction t with
  | nil => simp
  | cons c t ih =>
    have hc := c.utf8Size_pos
    simp only [List.length_cons, byteLength_cons]
    omega

/-- The first `j` characters are the first `i` and those between. -/
theorem take_eq_take_append (t : Text) {i j : Nat} (h : i ≤ j) :
    t.take j = t.take i ++ t.slice i j := by
  have hsplit := List.take_append_drop i (t.take j)
  rw [List.take_take, Nat.min_eq_left h] at hsplit
  exact hsplit.symm

/-- The text from `i` on is what stands before `j` and the text from `j` on. -/
theorem drop_eq_slice_append (t : Text) {i j : Nat} (h : i ≤ j) :
    t.drop i = t.slice i j ++ t.drop j := by
  have hsplit := List.take_append_drop (j - i) (t.drop i)
  rw [List.drop_drop, show i + (j - i) = j from by omega, List.take_drop,
    show i + (j - i) = j from by omega] at hsplit
  exact hsplit.symm

/-- Two neighbouring pieces of a text make one. -/
theorem slice_append_of_le (t : Text) {i j k : Nat} (hij : i ≤ j) (hjk : j ≤ k) :
    t.slice i j ++ t.slice j k = t.slice i k := by
  have hsplit := drop_eq_slice_append (t.take k) hij
  rw [slice, List.take_take, Nat.min_eq_left hjk] at hsplit
  exact hsplit.symm

/-- The piece at one offset is the character there. -/
theorem slice_succ (t : Text) (i : Nat) : t.slice i (i + 1) = t[i]?.toList := by
  rw [slice, List.drop_take, Nat.add_sub_cancel_left, List.take_one, List.head?_drop]

/-- A piece of a text is found in a longer text behind what was put in front. -/
theorem slice_append_append (front t back : Text) (i : Nat) {j : Nat} (hj : j ≤ t.length) :
    (front ++ t ++ back).slice (i + front.length) (j + front.length) = t.slice i j := by
  have hdrop : ∀ u : Text, (front ++ u).drop (i + front.length) = u.drop i := by
    intro u
    rw [Nat.add_comm, List.drop_length_add_append]
  rw [slice, Nat.add_comm j, List.append_assoc, List.take_length_add_append,
    List.take_append_of_le_length hj, hdrop, slice]

theorem byteLength_take_mono (t : Text) {i j : Nat} (h : i ≤ j) :
    byteLength (t.take i) ≤ byteLength (t.take j) := by
  rw [take_eq_take_append t h, byteLength_append]
  omega

theorem byteLength_take_le (t : Text) (i : Nat) : byteLength (t.take i) ≤ byteLength t := by
  have h := byteLength_append (t.take i) (t.drop i)
  rw [List.take_append_drop] at h
  omega

theorem byteLength_take_lt (t : Text) {i j : Nat} (h : i < j) (hj : j ≤ t.length) :
    byteLength (t.take i) < byteLength (t.take j) := by
  have hlen : (t.slice i j).length = j - i := by
    rw [length_slice, Nat.min_eq_left hj]
  have hpos := length_le_byteLength (t.slice i j)
  rw [take_eq_take_append t (Nat.le_of_lt h), byteLength_append]
  omega

/-- Characters start in the order of their offsets. -/
theorem byteLength_take_lt_iff (t : Text) {i j : Nat} (hj : j ≤ t.length) :
    byteLength (t.take i) < byteLength (t.take j) ↔ i < j := by
  constructor
  · intro h
    rcases Nat.lt_or_ge i j with hij | hij
    · exact hij
    · have := byteLength_take_mono t hij
      omega
  · intro h
    exact byteLength_take_lt t h hj

/-- In an ASCII text every character takes one byte. -/
theorem byteLength_eq_length {t : Text} (h : t.all (fun c => decide (c.val < 128)) = true) :
    byteLength t = t.length := by
  induction t with
  | nil => rfl
  | cons c t ih =>
    simp only [List.all_cons, Bool.and_eq_true, decide_eq_true_eq] at h
    have hc : c.utf8Size = 1 := by
      have hle : c.val ≤ 0x7f := by
        have h1 := h.1
        rw [UInt32.lt_iff_toNat_lt] at h1
        rw [UInt32.le_iff_toNat_le]
        have h128 : (128 : UInt32).toNat = 128 := rfl
        have h127 : (0x7f : UInt32).toNat = 127 := rfl
        omega
      simp [Char.utf8Size, hle]
    rw [byteLength_cons, List.length_cons, hc, ih h.2]
    omega

theorem byteLength_take_of_ascii {t : Text} (h : t.all (fun c => decide (c.val < 128)) = true)
    {i : Nat} (hi : i ≤ t.length) : byteLength (t.take i) = i := by
  rw [byteLength_eq_length, List.length_take, Nat.min_eq_left hi]
  rw [List.all_eq_true] at h ⊢
  intro c hc
  exact h c (List.mem_of_mem_take hc)

/-- Whether a character starts at a byte, or the text ends there. -/
def IsBoundary (t : Text) (b : Int) : Prop := ∃ o ≤ t.length, b = byteLength (t.take o)

instance (t : Text) (b : Int) : Decidable (t.IsBoundary b) :=
  decidable_of_iff
    ((List.range (t.length + 1)).any (fun o => b == (byteLength (t.take o) : Int)) = true)
    (by simp only [List.any_eq_true, List.mem_range, Nat.lt_succ_iff, beq_iff_eq, IsBoundary])

end Text

open Text

/-! ### The table of starts -/

/-- The entry for offset `i` is the byte at which the character at `i` starts. -/
theorem getD_byteTable (t : Text) (b : Nat) {i : Nat} (hi : i ≤ t.length) :
    (byteTable b t).getD i 0 = b + byteLength (t.take i) := by
  induction t generalizing b i with
  | nil =>
    have : i = 0 := by simpa using hi
    subst this
    rfl
  | cons c t ih =>
    cases i with
    | zero => simp [byteTable]
    | succ i =>
      simp only [List.length_cons] at hi
      rw [byteTable, List.getD_cons_succ, ih (b + c.utf8Size) (by omega), List.take_succ_cons,
        byteLength_cons]
      omega

theorem getLastD_byteTable (t : Text) (b : Nat) :
    (byteTable b t).getLastD 0 = b + byteLength t := by
  have h := getD_byteTable t b (Nat.le_refl t.length)
  rw [List.take_length] at h
  rw [← h, List.getLastD_eq_getLast?, List.getLast?_eq_getElem?, length_byteTable,
    List.getD_eq_getElem?_getD]
  rfl

theorem getElem_byteTable (t : Text) (b : Nat) {i : Nat} (hi : i < (byteTable b t).length) :
    (byteTable b t)[i] = b + byteLength (t.take i) := by
  have hle : i ≤ t.length := by
    rw [length_byteTable] at hi
    omega
  rw [← getD_byteTable t b hle, List.getD_eq_getElem _ _ hi]

/-- Characters start one after the other. -/
theorem pairwise_byteTable (b : Nat) (t : Text) : (byteTable b t).Pairwise (· < ·) := by
  rw [List.pairwise_iff_getElem]
  intro i j hi hj hij
  have hle : j ≤ t.length := by
    rw [length_byteTable] at hj
    omega
  rw [getElem_byteTable, getElem_byteTable]
  exact Nat.add_lt_add_left (byteLength_take_lt t hij hle) b

/-- The table is searched by the bytes at which characters start. -/
theorem lt_rank_byteTable_iff (t : Text) (b x : Nat) {i : Nat} (hi : i ≤ t.length) :
    i < rank (byteTable b t) x ↔ b + byteLength (t.take i) ≤ x := by
  have hlt : i < (byteTable b t).length := by
    rw [length_byteTable]
    omega
  rw [lt_rank_iff (pairwise_byteTable b t) hlt, getElem_byteTable]

namespace PositionIndex

/-! ### The specification of both ways -/

/-- The index of a text that has the table also where the text is ASCII. -/
def tabled (t : Text) : PositionIndex := { ofText t with byteStarts := some (byteTable 0 t) }

theorem ofText_eq_tabled {t : Text} (h : ¬t.all (fun c => decide (c.val < 128)) = true) :
    ofText t = tabled t := by
  rw [tabled, ofText, if_neg h]

theorem le_offsetOfByte_tabled_iff (t : Text) (b : Int) {o : Nat} (ho : o ≤ t.length) :
    o ≤ (tabled t).offsetOfByte b ↔ (byteLength (t.take o) : Int) ≤ max b 0 := by
  simp only [offsetOfByte, tabled, getLastD_byteTable, Nat.zero_add, text_ofText]
  split
  · -- only the first character starts at byte zero
    have hpos := length_le_byteLength (t.take o)
    rw [List.length_take, Nat.min_eq_left ho] at hpos
    constructor
    · intro h
      have : o = 0 := by omega
      subst this
      simp only [List.take_zero, byteLength_nil]
      omega
    · intro h
      omega
  · split
    · have hle := byteLength_take_le t o
      constructor
      · intro _
        omega
      · intro _
        exact ho
    · have hrank := lt_rank_byteTable_iff t 0 b.toNat ho
      have hzero := lt_rank_byteTable_iff t 0 b.toNat (Nat.zero_le _)
      simp only [List.take_zero, byteLength_nil] at hzero
      omega

theorem offsetOfByte_tabled_le (t : Text) (b : Int) : (tabled t).offsetOfByte b ≤ t.length := by
  have hrank := rank_le_length (byteTable 0 t) b.toNat
  rw [length_byteTable] at hrank
  simp only [offsetOfByte, tabled, text_ofText]
  split
  · omega
  · split
    · exact Nat.le_refl _
    · omega

/-- **Offsets and bytes fit together.** An offset of the text is at most the offset of a byte
exactly when the character at it starts at or before that byte; bytes before the text count as
its first one. -/
theorem le_offsetOfByte_iff (t : Text) (b : Int) {o : Nat} (ho : o ≤ t.length) :
    o ≤ (ofText t).offsetOfByte b ↔ (byteLength (t.take o) : Int) ≤ max b 0 := by
  by_cases ha : t.all (fun c => decide (c.val < 128)) = true
  · -- no table: the first `o` characters take `o` bytes
    simp only [offsetOfByte, ofText, if_pos ha, clamp, byteLength_take_of_ascii ha ho]
    omega
  · rw [ofText_eq_tabled ha]
    exact le_offsetOfByte_tabled_iff t b ho

theorem offsetOfByte_le (t : Text) (b : Int) : (ofText t).offsetOfByte b ≤ t.length := by
  by_cases ha : t.all (fun c => decide (c.val < 128)) = true
  · simp only [offsetOfByte, ofText, if_pos ha]
    exact clamp_le _ _
  · rw [ofText_eq_tabled ha]
    exact offsetOfByte_tabled_le t b

/-- A table for an ASCII text finds the same offsets as no table. -/
theorem offsetOfByte_tabled (t : Text) (b : Int) :
    (tabled t).offsetOfByte b = (ofText t).offsetOfByte b := by
  have htable := offsetOfByte_tabled_le t b
  have hle := offsetOfByte_le t b
  apply Nat.le_antisymm
  · rw [le_offsetOfByte_iff t b htable]
    exact (le_offsetOfByte_tabled_iff t b htable).1 (Nat.le_refl _)
  · rw [le_offsetOfByte_tabled_iff t b hle]
    exact (le_offsetOfByte_iff t b hle).1 (Nat.le_refl _)

/-- Offsets follow the order of the bytes. -/
theorem offsetOfByte_mono (t : Text) {b b' : Int} (h : b ≤ b') :
    (ofText t).offsetOfByte b ≤ (ofText t).offsetOfByte b' := by
  have hle := offsetOfByte_le t b
  rw [le_offsetOfByte_iff t b' hle]
  have := (le_offsetOfByte_iff t b hle).1 (Nat.le_refl _)
  omega

/-- There are no more characters between two bytes than bytes. -/
theorem offsetOfByte_le_add (t : Text) {b b' : Int} (h : b ≤ b') :
    ((ofText t).offsetOfByte b' : Int) ≤ (ofText t).offsetOfByte b + (b' - b) := by
  rcases Nat.lt_or_ge ((ofText t).offsetOfByte b) ((ofText t).offsetOfByte b') with hlt | hge
  · have hle := offsetOfByte_le t b'
    -- the next character starts behind `b`, and the characters from there on take a byte each
    have hnext : ¬((byteLength (t.take ((ofText t).offsetOfByte b + 1)) : Int) ≤ max b 0) := by
      rw [← le_offsetOfByte_iff t b (Nat.le_trans hlt hle)]
      omega
    have hstop := (le_offsetOfByte_iff t b' hle).1 (Nat.le_refl _)
    have hbetween := length_le_byteLength
      (t.slice ((ofText t).offsetOfByte b + 1) ((ofText t).offsetOfByte b'))
    rw [length_slice, Nat.min_eq_left hle] at hbetween
    rw [take_eq_take_append t (Nat.succ_le_of_lt hlt), byteLength_append, Nat.succ_eq_add_one]
      at hstop
    omega
  · omega

/-- The byte at which a character starts leads back to the character. -/
theorem offsetOfByte_byteLength_take (t : Text) {o : Nat} (ho : o ≤ t.length) :
    (ofText t).offsetOfByte (byteLength (t.take o)) = o := by
  have hle := offsetOfByte_le t (byteLength (t.take o))
  apply Nat.le_antisymm
  · have := (le_offsetOfByte_iff t (byteLength (t.take o)) hle).1 (Nat.le_refl _)
    rcases Nat.lt_or_ge o ((ofText t).offsetOfByte (byteLength (t.take o))) with hlt | hge
    · have := byteLength_take_lt t hlt hle
      omega
    · exact hge
  · rw [le_offsetOfByte_iff t _ ho]
    omega

/-- Text around a text moves the offsets of its bytes by the number of characters in front. The
two indexes need not go the same way: one text may be ASCII and the other not. -/
theorem offsetOfByte_append (front t back : Text) {b : Int} (hb : 0 ≤ b)
    (ht : b ≤ byteLength t) :
    (ofText (front ++ t ++ back)).offsetOfByte (b + byteLength front) =
      (ofText t).offsetOfByte b + front.length := by
  have hin := offsetOfByte_le t b
  have hout := offsetOfByte_le (front ++ t ++ back) (b + byteLength front)
  -- where the characters of `t` start
  have hstart : ∀ o ≤ t.length, byteLength ((front ++ t ++ back).take (o + front.length)) =
      byteLength (t.take o) + byteLength front := by
    intro o ho
    rw [Nat.add_comm o, List.append_assoc, List.take_length_add_append,
      List.take_append_of_le_length ho, byteLength_append, Nat.add_comm]
  apply Nat.le_antisymm
  · apply Nat.le_of_not_lt
    intro hlt
    have hnext := (le_offsetOfByte_iff _ (b + byteLength front) (Nat.le_trans hlt hout)).1 hlt
    rcases Nat.lt_or_ge ((ofText t).offsetOfByte b) t.length with hinside | hend
    · -- the next character of `t` starts behind `b`
      have hbehind := le_offsetOfByte_iff t b (Nat.succ_le_of_lt hinside)
      rw [Nat.succ_eq_add_one, Nat.add_right_comm, hstart _ hinside] at hnext
      omega
    · -- `b` is the end of `t`, and the next character belongs to the text behind
      have hlast := hstart t.length (Nat.le_refl _)
      have hless := byteLength_take_lt (front ++ t ++ back) (Nat.lt_succ_self _)
        (Nat.le_trans hlt hout)
      rw [Nat.le_antisymm hin hend, hlast, List.take_length] at hless
      rw [Nat.le_antisymm hin hend] at hnext
      omega
  · rw [le_offsetOfByte_iff _ _ (by simp; omega), hstart _ hin]
    have := (le_offsetOfByte_iff t b hin).1 (Nat.le_refl _)
    omega

theorem byteOfOffset_tabled (t : Text) (o : Int) :
    (tabled t).byteOfOffset o = byteLength (t.take ((ofText t).clamp o)) := by
  have h := getD_byteTable t 0 (clamp_le (ofText t) o)
  rw [Nat.zero_add] at h
  exact h

/-- The byte of an offset is the byte length of what stands before it. -/
theorem byteOfOffset_eq (t : Text) (o : Int) :
    (ofText t).byteOfOffset o = byteLength (t.take ((ofText t).clamp o)) := by
  by_cases ha : t.all (fun c => decide (c.val < 128)) = true
  · rw [byteLength_take_of_ascii ha (clamp_le (ofText t) o)]
    simp only [byteOfOffset, ofText, if_pos ha]
  · rw [← byteOfOffset_tabled, ← ofText_eq_tabled ha]

end PositionIndex

/-- A boundary is the byte at which the character at its offset starts. -/
theorem Text.IsBoundary.eq_byteLength {t : Text} {b : Int} (h : t.IsBoundary b) :
    b = byteLength (t.take ((PositionIndex.ofText t).offsetOfByte b)) := by
  obtain ⟨o, ho, rfl⟩ := h
  rw [PositionIndex.offsetOfByte_byteLength_take t ho]

end TreeLint
