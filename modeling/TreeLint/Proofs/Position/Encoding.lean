import TreeLint.Proofs.Position.Bytes

/-!
# Texts as bytes

`Text.utf8` is the UTF-8 form of a text, and `Text.byteLength` its length (`length_utf8`). A piece
of a text between two offsets has the bytes between those of the offsets (`utf8_slice`), since the
forms of two texts are put together like the texts.

In these terms the two conversions of an index are adjoint. `byteOfOffset` gives the length of the
form of what stands before an offset, and `offsetOfByte` the greatest offset for which this length
is at most the byte (`isGreatest_offsetOfByte`). So going from an offset to its byte and back is
moving it into the text, and going from a byte to its offset and back is moving it to the last
start of a character (`isGreatest_byteOfOffset`). The main statement is `conversions_adjoint`.
-/

namespace TreeLint

theorem toList_loop (bytes : ByteArray) (i : Nat) (read : List UInt8) :
    ByteArray.toList.loop bytes i read = read.reverse ++ bytes.data.toList.drop i := by
  fun_induction ByteArray.toList.loop bytes i read with
  | case1 i read hlt ih =>
    have hsize : i < bytes.data.size := hlt
    have hget : bytes.data.toList.drop i = bytes.get! i :: bytes.data.toList.drop (i + 1) := by
      rw [List.drop_eq_getElem_cons (by simpa using hsize)]
      congr 1
      exact (getElem!_pos bytes.data i hsize).symm
    rw [ih, hget, List.reverse_cons, List.append_assoc]
    rfl
  | case2 i read hge =>
    have hsize : bytes.data.size ≤ i := Nat.not_lt.1 hge
    rw [List.drop_eq_nil_of_le (by simpa using hsize), List.append_nil]

/-- The bytes of a text are those of its characters. -/
theorem toList_toUTF8 (t : Text) :
    (String.ofList t).toUTF8.toList = t.flatMap String.utf8EncodeChar := by
  show ByteArray.toList.loop _ 0 [] = _
  rw [toList_loop]
  exact List.toList_data_toByteArray

namespace Text

/-- The UTF-8 form of a text. -/
def utf8 (t : Text) : List UInt8 := (String.ofList t).toUTF8.toList

theorem utf8_append (s t : Text) : utf8 (s ++ t) = s.utf8 ++ t.utf8 := by
  simp only [utf8, toList_toUTF8, List.flatMap_append]

theorem length_utf8 (t : Text) : t.utf8.length = t.byteLength := by
  rw [utf8, toList_toUTF8]
  induction t with
  | nil => rfl
  | cons c t ih =>
    rw [List.flatMap_cons, List.length_append, ih, String.length_utf8EncodeChar, byteLength_cons]

/-- A piece of a text has the bytes from the byte of its start to the byte of its end. -/
theorem utf8_slice (t : Text) {i j : Nat} (h : i ≤ j) :
    (t.slice i j).utf8 = t.utf8.extract (byteLength (t.take i)) (byteLength (t.take j)) := by
  have hsplit : t.utf8 = utf8 (t.take i) ++ ((t.slice i j).utf8 ++ utf8 (t.drop j)) := by
    rw [← utf8_append, ← utf8_append, ← drop_eq_slice_append t h, List.take_append_drop]
  have hlen : byteLength (t.take j) = byteLength (t.take i) + (t.slice i j).byteLength := by
    rw [take_eq_take_append t h, byteLength_append]
  rw [hsplit, hlen, ← length_utf8, ← length_utf8, List.extract_eq_take_drop, List.drop_left,
    Nat.add_sub_cancel_left, List.take_left]

end Text

open Text

namespace PositionIndex

variable (t : Text)

/-- The offset of a byte is the greatest one whose character starts at or before the byte. -/
theorem isGreatest_offsetOfByte (b : Int) :
    IsGreatest {o | o ≤ t.length ∧ ((utf8 (t.take o)).length : Int) ≤ max b 0}
      ((ofText t).offsetOfByte b) := by
  simp only [length_utf8]
  have hle := offsetOfByte_le t b
  refine ⟨⟨hle, (le_offsetOfByte_iff t b hle).1 (Nat.le_refl _)⟩, ?_⟩
  rintro o ⟨ho, hbyte⟩
  exact (le_offsetOfByte_iff t b ho).2 hbyte

theorem byteOfOffset_natCast {o : Nat} (ho : o ≤ t.length) :
    (ofText t).byteOfOffset o = byteLength (t.take o) := by
  rw [byteOfOffset_eq, clamp_natCast t ho]

/-- The byte of the offset of a byte is the last start of a character, or end of the text, at or
before the byte. -/
theorem isGreatest_byteOfOffset (b : Int) :
    IsGreatest {x : Nat | t.IsBoundary x ∧ (x : Int) ≤ max 0 (min b t.utf8.length)}
      ((ofText t).byteOfOffset ((ofText t).offsetOfByte b)) := by
  have hle := offsetOfByte_le t b
  have hbyte := (le_offsetOfByte_iff t b hle).1 (Nat.le_refl _)
  have hend := byteLength_take_le t ((ofText t).offsetOfByte b)
  rw [byteOfOffset_natCast t hle, length_utf8]
  refine ⟨⟨⟨_, hle, rfl⟩, by omega⟩, ?_⟩
  rintro x ⟨⟨o, ho, hx⟩, hxb⟩
  have hbefore := (le_offsetOfByte_iff t b ho).2 (by omega)
  have := byteLength_take_mono t hbefore
  omega

/-- **The conversions between offsets and bytes are adjoint**, for an ASCII text as for any other.
The byte of an offset is the length of the UTF-8 form of what stands before it, and comes back as
the offset moved into the text. The offset of a byte is the greatest one whose byte is at most the
byte asked for, so it follows the order of the bytes, and comes back as the last start of a
character at or before that byte. An index that has the table of bytes also for an ASCII text would
give the same. -/
theorem conversions_adjoint :
    (∀ offset : Int, ∃ o : Nat, (o : Int) = max 0 (min offset t.length) ∧
      (ofText t).byteOfOffset offset = (utf8 (t.take o)).length ∧
      (ofText t).offsetOfByte ((ofText t).byteOfOffset offset) = o ∧
      ∀ b : Int, ((ofText t).byteOfOffset offset : Int) ≤ max b 0 ↔
        o ≤ (ofText t).offsetOfByte b) ∧
    (∀ b : Int,
      IsGreatest {o | o ≤ t.length ∧ ((utf8 (t.take o)).length : Int) ≤ max b 0}
        ((ofText t).offsetOfByte b) ∧
      IsGreatest {x : Nat | t.IsBoundary x ∧ (x : Int) ≤ max 0 (min b t.utf8.length)}
        ((ofText t).byteOfOffset ((ofText t).offsetOfByte b)) ∧
      ∀ b' : Int, b ≤ b' → (ofText t).offsetOfByte b ≤ (ofText t).offsetOfByte b') ∧
    ∀ x : Int, (tabled t).offsetOfByte x = (ofText t).offsetOfByte x ∧
      (tabled t).byteOfOffset x = (ofText t).byteOfOffset x := by
  refine ⟨?_, ?_, ?_⟩
  · intro offset
    have hle := clamp_le (ofText t) offset
    refine ⟨_, natCast_clamp t offset, ?_, ?_, ?_⟩
    · rw [byteOfOffset_eq, length_utf8]
    · rw [byteOfOffset_eq, offsetOfByte_byteLength_take t hle]
    · intro b
      rw [byteOfOffset_eq, le_offsetOfByte_iff t b hle]
  · intro b
    exact ⟨isGreatest_offsetOfByte t b, isGreatest_byteOfOffset t b,
      fun b' h => offsetOfByte_mono t h⟩
  · intro x
    rw [offsetOfByte_tabled, byteOfOffset_tabled, byteOfOffset_eq]
    exact ⟨rfl, rfl⟩

/-- A text with characters of two, one and four bytes. -/
def wideText : Text := "üx😀".toList

/-- A byte inside the last character leads to the start of that character. -/
theorem wideText_converted :
    (3 : Int) ≤ 5 ∧ (ofText wideText).offsetOfByte 3 ≤ (ofText wideText).offsetOfByte 5 ∧
      IsGreatest {o | o ≤ wideText.length ∧ ((utf8 (wideText.take o)).length : Int) ≤ max 5 0} 2 ∧
      IsGreatest {x : Nat | wideText.IsBoundary x ∧
        (x : Int) ≤ max 0 (min 5 (wideText.utf8.length : Int))} 3 := by
  obtain ⟨-, hoffset, -⟩ := conversions_adjoint wideText
  obtain ⟨hgreatest, hboundary, -⟩ := hoffset 5
  have htwo : (ofText wideText).offsetOfByte 5 = 2 := by decide
  have hthree : (ofText wideText).byteOfOffset (2 : Nat) = 3 := by decide
  rw [htwo] at hgreatest hboundary
  rw [hthree] at hboundary
  exact ⟨by decide, (hoffset 3).2.2 5 (by decide), hgreatest, hboundary⟩

end PositionIndex

end TreeLint
