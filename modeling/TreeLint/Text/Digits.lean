import TreeLint.Text.Basic

/-!
# Digits of all scripts

Many scripts have decimal digits of their own, each in a run of ten code points from zero to nine.
`zeros` lists where the runs start, for version 14 of the character database. `Text.western` puts
a text that may be a number into ASCII digits and spaces.
-/

namespace TreeLint

namespace Text

/-- The digit zero of every script but ASCII. -/
def zeros : List Nat :=
  [0x660, 0x6f0, 0x7c0, 0x966, 0x9e6, 0xa66, 0xae6, 0xb66, 0xbe6, 0xc66, 0xce6, 0xd66, 0xde6,
  0xe50, 0xed0, 0xf20, 0x1040, 0x1090, 0x17e0, 0x1810, 0x1946, 0x19d0, 0x1a80, 0x1a90, 0x1b50,
  0x1bb0, 0x1c40, 0x1c50, 0xa620, 0xa8d0, 0xa900, 0xa9d0, 0xa9f0, 0xaa50, 0xabf0, 0xff10, 0x104a0,
  0x10d30, 0x11066, 0x110f0, 0x11136, 0x111d0, 0x112f0, 0x11450, 0x114d0, 0x11650, 0x116c0,
  0x11730, 0x118e0, 0x11950, 0x11c50, 0x11d50, 0x11da0, 0x16a60, 0x16ac0, 0x16b50, 0x1d7ce,
  0x1d7d8, 0x1d7e2, 0x1d7ec, 0x1d7f6, 0x1e140, 0x1e2f0, 0x1e950, 0x1fbf0]

/-- The value of a decimal digit of any script but ASCII. -/
def foreignDigit? (c : Char) : Option Nat :=
  (zeros.find? fun z => decide (z ≤ c.toNat ∧ c.toNat < z + 10)).map fun z => c.toNat - z

/-- Whether a character outside ASCII is a space. -/
def isWideSpace (c : Char) : Bool :=
  ['\x85', '\xa0', '\u1680', '\u2028', '\u2029', '\u202f', '\u205f', '\u3000'].contains c ||
    decide ('\u2000' ≤ c ∧ c ≤ '\u200a')

/-- A text with the digits and spaces of other scripts replaced by those of ASCII. The text ends
in a question mark at the first character that is neither. -/
def western : Text → Text
  | [] => []
  | c :: rest =>
    if c < '\x7f' then c :: western rest
    else if isWideSpace c then ' ' :: western rest
    else
      match foreignDigit? c with
      | some d => Char.ofNat ('0'.toNat + d) :: western rest
      | none => ['?']

/-- Whether a character is a space of ASCII. -/
def isAsciiSpace (c : Char) : Bool :=
  c == ' ' || c == '\t' || c == '\n' || c == '\r' || c == '\x0b' || c == '\x0c'

/-- A text without the spaces around it. -/
def trimmed (t : Text) : Text :=
  ((t.dropWhile isAsciiSpace).reverse.dropWhile isAsciiSpace).reverse

end Text

end TreeLint
