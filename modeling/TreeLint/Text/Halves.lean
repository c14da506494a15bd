import TreeLint.Text.Codes
import TreeLint.Text.Quoted

/-!
# Strings with halves of characters

An escape may name half of a pair of UTF-16 units. No character has such a code, so a string with
halves in it is a list of codes and no text. While it is read it is kept as a text all the same
(`Text.ofCodes`): a half is written as two characters, a mark and a stand-in that is neither a
digit nor a blank, and the mark itself is written twice. So nothing is lost (`Text.codes_ofCodes`).
-/

namespace TreeLint

namespace Text

/-- The mark before a stand-in, the last of all characters. -/
def halfMark : Char := Char.ofNat 0x10ffff

/-- The first of the stand-ins. -/
def standIn : Nat := 0x20000

/-- How a code is written. -/
def ofCode (n : Nat) : Text :=
  if n.isValidChar then
    if n = 0x10ffff then [halfMark, halfMark] else [Char.ofNat n]
  else [halfMark, Char.ofNat (standIn + (n - 0xd800))]

/-- How codes are written. -/
def ofCodes (codes : List Nat) : Text := codes.flatMap ofCode

/-- The codes that a text is written for. -/
def codes : Text → List Nat
  | [] => []
  | [c] => [c.toNat]
  | c :: d :: rest =>
    if c = halfMark then
      (if d = halfMark then 0x10ffff else 0xd800 + (d.toNat - standIn)) :: codes rest
    else c.toNat :: codes (d :: rest)

theorem codes_cons_of_ne {c : Char} (rest : Text) (h : c ≠ halfMark) :
    codes (c :: rest) = c.toNat :: codes rest := by
  cases rest with
  | nil => rfl
  | cons d rest => rw [codes, if_neg h]

theorem codes_ofCode_append {n : Nat} (h : n < 0x110000) (rest : Text) :
    codes (ofCode n ++ rest) = n :: codes rest := by
  by_cases hv : n.isValidChar
  · by_cases hn : n = 0x10ffff
    · subst hn
      simp [ofCode, hv, codes]
    · have hc := toNat_ofNat hv
      have hne : Char.ofNat n ≠ halfMark := by
        intro he
        have hm : halfMark.toNat = 0x10ffff := by decide
        rw [← he, hc] at hm
        exact hn hm
      simp [ofCode, hv, hn, codes_cons_of_ne _ hne, hc]
  · have hr : 0xd800 ≤ n ∧ n < 0xe000 := by
      simp only [Nat.isValidChar] at hv
      omega
    have hs : (standIn + (n - 0xd800)).isValidChar := by
      simp only [Nat.isValidChar, standIn]
      omega
    have hc := toNat_ofNat hs
    have hne : Char.ofNat (standIn + (n - 0xd800)) ≠ halfMark := by
      intro he
      have hm : halfMark.toNat = 0x10ffff := by decide
      rw [← he, hc] at hm
      simp only [standIn] at hm
      omega
    have hback : 0xd800 + (standIn + (n - 0xd800) - standIn) = n := by omega
    simp only [ofCode, hv, if_false, List.cons_append, List.nil_append, codes, if_true, hne, hc,
      hback]

/-- What is written for codes can be read back. -/
theorem codes_ofCodes {cs : List Nat} (h : ∀ n ∈ cs, n < 0x110000) : codes (ofCodes cs) = cs := by
  induction cs with
  | nil => rfl
  | cons n cs ih =>
    rw [ofCodes, List.flatMap_cons, codes_ofCode_append (h n (by simp)),
      ← ofCodes, ih fun m hm => h m (by simp [hm])]

/-- How a text without halves is written. -/
def guarded (t : Text) : Text := t.flatMap fun c => if c = halfMark then [c, c] else [c]

/-- Codes as a text for reading. Two halves of a pair that follow each other are one character,
and a half by itself is replaced. -/
def joined : List Nat → Text
  | [] => []
  | [a] => [if a.isValidChar then Char.ofNat a else '\ufffd']
  | a :: b :: rest =>
    if a.isValidChar then Char.ofNat a :: joined (b :: rest)
    else if a < 0xdc00 ∧ 0xdc00 ≤ b ∧ b < 0xe000 then
      Char.ofNat (0x10000 + (a - 0xd800) * 0x400 + (b - 0xdc00)) :: joined rest
    else '\ufffd' :: joined (b :: rest)

/-- A code inside quotes. A half is shown by its code. -/
def showCode (quote : Char) (n : Nat) : Text :=
  if n.isValidChar then showChar quote (Char.ofNat n) else '\\' :: 'u' :: hexDigits 4 n

/-- Codes between quotes. -/
def quotedCodes (codes : List Nat) : Text :=
  let q := quoteFor (joined codes)
  q :: (codes.flatMap (showCode q) ++ [q])

end Text

end TreeLint
