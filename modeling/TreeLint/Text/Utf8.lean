import TreeLint.Text.Basic

/-!
# Bytes to characters

A machine that reads the UTF-8 form of a text byte by byte. Between two bytes it holds how many
bytes the character in hand still needs, in which range the next one lies, and the bits read so
far; so a text can be read in pieces that end in the middle of a character. A byte out of range is
refused at once, and a surrogate at its last byte.
-/

namespace TreeLint

/-- The state between two bytes. -/
structure Utf8 where
  /-- How many bytes the character in hand still needs. -/
  owed : Nat := 0
  /-- The least byte that may come next. -/
  low : Nat := 0x80
  /-- The greatest byte that may come next. -/
  high : Nat := 0xbf
  /-- The bits of the character in hand. -/
  code : Nat := 0
deriving DecidableEq, Repr

namespace Utf8

/-- The state behind the first byte of a character of several bytes. The range of the second byte
keeps out forms that are longer than needed and codes behind the last character. -/
def lead? (b : Nat) : Option Utf8 :=
  if b < 0xc2 then none
  else if b < 0xe0 then some { owed := 1, code := b - 0xc0 }
  else if b = 0xe0 then some { owed := 2, low := 0xa0, code := 0 }
  else if b < 0xf0 then some { owed := 2, code := b - 0xe0 }
  else if b = 0xf0 then some { owed := 3, low := 0x90, code := 0 }
  else if b < 0xf4 then some { owed := 3, code := b - 0xf0 }
  else if b = 0xf4 then some { owed := 3, high := 0x8f, code := 4 }
  else none

/-- Read one byte: the character that it completes, if it does, and the next state. -/
def step (s : Utf8) (b : Nat) : Option (Option Char × Utf8) :=
  match s.owed with
  | 0 => if b < 0x80 then some (some (Char.ofNat b), {}) else (lead? b).map fun s => (none, s)
  | owed + 1 =>
    if b < s.low ∨ s.high < b then none
    else
      let code := 64 * s.code + (b - 0x80)
      if 0 < owed then some (none, { owed, code })
      else if code.isValidChar then some (some (Char.ofNat code), {})
      else none

/-- Read some bytes; the characters are collected in front of `read`, the last one first. -/
def run (s : Utf8) (read : Text) : List UInt8 → Option (Text × Utf8)
  | [] => some (read, s)
  | b :: rest =>
    match s.step b.toNat with
    | none => none
    | some (c, s) => run s (c.toList ++ read) rest

/-- Whether the bytes so far end between two characters. -/
def complete (s : Utf8) : Bool := s.owed == 0

end Utf8

/-- The text that bytes are the UTF-8 form of. -/
def Text.ofUtf8? (bytes : List UInt8) : Option Text :=
  match Utf8.run {} [] bytes with
  | some (read, s) => if s.complete then some read.reverse else none
  | none => none

end TreeLint
