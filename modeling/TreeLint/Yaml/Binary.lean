import TreeLint.Text.Quoted

/-!
# Bytes in a document

A scalar may stand for bytes, which are then written in base 64: four characters for three bytes,
and equals signs where the last ones are missing. Characters that do not belong to the alphabet
are passed over, and what follows the closing equals signs is not looked at.
-/

namespace TreeLint

namespace Yaml

/-- The value of a character of the alphabet. -/
def sextet? (c : Char) : Option Nat :=
  if 'A' ≤ c ∧ c ≤ 'Z' then some (c.toNat - 'A'.toNat)
  else if 'a' ≤ c ∧ c ≤ 'z' then some (c.toNat - 'a'.toNat + 26)
  else if c.isDigit then some (c.toNat - '0'.toNat + 52)
  else if c == '+' then some 62
  else if c == '/' then some 63
  else none

/-- A group of four characters that is being read. -/
structure Quad where
  /-- How many of its characters were read. -/
  place : Nat := 0
  /-- The bits that are left over from them. -/
  bits : Nat := 0
  /-- How many equals signs were read behind them. -/
  signs : Nat := 0
deriving DecidableEq, Repr

/-- The group behind one more character of the alphabet, and the byte that it completes. -/
def Quad.next (q : Quad) (d : Nat) : Quad × List Nat :=
  match q.place with
  | 0 => (⟨1, d, 0⟩, [])
  | 1 => (⟨2, d % 16, 0⟩, [4 * q.bits + d / 16])
  | 2 => (⟨3, d % 4, 0⟩, [16 * q.bits + d / 4])
  | _ => (⟨0, 0, 0⟩, [64 * q.bits + d])

/-- The bytes that a text stands for. -/
def bytesFrom (q : Quad) : Text → Option (List Nat)
  | [] => if q.place = 0 then some [] else none
  | c :: rest =>
    if c == '=' then
      if 2 ≤ q.place then
        if 4 ≤ q.place + q.signs + 1 then some []
        else bytesFrom { q with signs := q.signs + 1 } rest
      else bytesFrom q rest
    else
      match sextet? c with
      | none => bytesFrom q rest
      | some d =>
        let (q, out) := q.next d
        (bytesFrom q rest).map (out ++ ·)

/-- The bytes that a text stands for. The text has to be one of ASCII. -/
def bytesOfText? (t : Text) : Option (List Nat) :=
  if t.all fun c => decide (c.toNat < 0x80) then bytesFrom {} t else none

/-- A byte inside quotes. -/
def showByte (quote : Char) (b : Nat) : Text :=
  let c := Char.ofNat b
  if c = '\\' ∨ c = quote then ['\\', c]
  else if c = '\n' then ['\\', 'n']
  else if c = '\r' then ['\\', 'r']
  else if c = '\t' then ['\\', 't']
  else if ' ' ≤ c ∧ c ≤ '~' then [c]
  else '\\' :: 'x' :: hexDigits 2 b

/-- How bytes are shown in a message. -/
def bytesDisplay (bs : List Nat) : String :=
  let q := Text.quoteFor (bs.map Char.ofNat)
  String.ofList ('b' :: q :: (bs.flatMap (showByte q) ++ [q]))

end Yaml

end TreeLint
