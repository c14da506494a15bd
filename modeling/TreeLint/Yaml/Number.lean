import TreeLint.Number.Binary64
import TreeLint.Text.Digits
import TreeLint.Text.Lowercase
import TreeLint.Yaml.Fault

/-!
# Numbers

What the text of a number stands for. Underscores between digits do not count. A sign may come
first, and then the base of a whole number is told by `0b` or `0x`; a zero alone at the front tells
that it is eight. A colon divides the places of a number in base sixty.

A text is taken for a number because it looks like one or because a tag says so; in the second
case it may be anything, and is then refused (`Fault.noInteger`, `Fault.noNumber`). Each place is
read by itself, so it may have a sign and spaces around it, and the digits of all scripts count.
-/

namespace TreeLint

namespace Yaml

/-- The value of a digit, in bases up to sixteen. -/
def digitValue? (base : Nat) (c : Char) : Option Nat :=
  let value :=
    if c.isDigit then some (c.toNat - '0'.toNat)
    else if 'a' ≤ c ∧ c ≤ 'f' then some (c.toNat - 'a'.toNat + 10)
    else if 'A' ≤ c ∧ c ≤ 'F' then some (c.toNat - 'A'.toNat + 10)
    else none
  value.filter fun d => decide (d < base)

/-- The sign of a number and what follows it. -/
def signed : Text → Bool × Text
  | '-' :: rest => (true, rest)
  | '+' :: rest => (false, rest)
  | t => (false, t)

/-- The letter that tells a base behind a zero. -/
def baseLetter : Nat → Option Char
  | 2 => some 'b'
  | 8 => some 'o'
  | 16 => some 'x'
  | _ => none

/-- A text without the mark of its base, such as `0x`, at the front. -/
def withoutBase (base : Nat) : Text → Text
  | '0' :: c :: rest => if baseLetter base == some c.toLower then rest else '0' :: c :: rest
  | t => t

/-- The number that digits stand for in a base. -/
def natOfDigits (base : Nat) (t : Text) : Nat :=
  t.foldl (fun n c => base * n + (digitValue? base c).getD 0) 0

/-- The most digits that a decimal number may have. -/
def digitLimit : Nat := 4300

/-- The whole number that a text stands for in a base. -/
def integer (base : Nat) (given : Text) : Except Fault Int :=
  let (negative, body) := signed ((Text.western given).dropWhile Text.isAsciiSpace)
  let body := withoutBase base body
  let isDigit (c : Char) : Bool := (digitValue? base c).isSome
  let digits := body.takeWhile isDigit
  if base = 10 ∧ digitLimit < digits.length then .error (.tooManyDigits digits.length)
  else if digits.isEmpty || !(body.dropWhile isDigit).all Text.isAsciiSpace then
    .error (.noInteger base given)
  else
    let n : Int := natOfDigits base digits
    .ok (if negative then -n else n)

/-- A number in base sixty, of which the places are given from the last one on. -/
def sumOfPlaces (unit : Int) : List Int → Int
  | [] => 0
  | x :: xs => x * unit + sumOfPlaces (60 * unit) xs

/-- A text without underscores. -/
def ungrouped (t : Text) : Text := t.filter (· != '_')

/-- The whole number that a text without a sign stands for. -/
def unsignedInt (body : Text) : Except Fault Int :=
  match body with
  | [] => .error .emptyNumber
  | ['0'] => .ok 0
  | '0' :: 'b' :: ds => integer 2 ds
  | '0' :: 'x' :: ds => integer 16 ds
  | '0' :: _ => integer 8 body
  | _ => ((Text.split ':' body).mapM (integer 10)).map fun xs => sumOfPlaces 1 xs.reverse

/-- The whole number that a text stands for. -/
def intOfText (t : Text) : Except Fault Int :=
  let (negative, body) := signed (ungrouped t)
  (unsignedInt body).map fun n => if negative then -n else n

/-! ### Numbers with a fraction -/

/-- The exponent in a number, which may be left out. -/
def exponent? : Text → Option Int
  | [] => some 0
  | e :: rest =>
    let (negative, ds) := signed rest
    if (e == 'e' || e == 'E') && !ds.isEmpty && ds.all Char.isDigit then
      let n : Int := natOfDigits 10 ds
      some (if negative then -n else n)
    else none

/-- The number that decimal digits stand for, with a point and an exponent if there are any. -/
def decimal? (negative : Bool) (t : Text) : Option Binary64 :=
  let whole := t.takeWhile Char.isDigit
  let tail := t.dropWhile Char.isDigit
  let (fraction, tail) := match tail with
    | '.' :: rest => (rest.takeWhile Char.isDigit, rest.dropWhile Char.isDigit)
    | tail => ([], tail)
  if whole.isEmpty && fraction.isEmpty then none
  else (exponent? tail).map fun e =>
    .ofDecimal negative (natOfDigits 10 (whole ++ fraction)) (e - fraction.length)

/-- The number that a text stands for. -/
def number (given : Text) : Except Fault Binary64 :=
  let (negative, body) := signed (Text.trimmed (Text.western given))
  let word := String.ofList (body.map Char.toLower)
  if word = "inf" ∨ word = "infinity" then .ok (.infinite negative)
  else if word = "nan" then .ok .nan
  else
    match decimal? negative body with
    | some x => .ok x
    | none => .error (.noNumber given)

/-- Add up the places of a number in base sixty, from the last one on. The sum is rounded at every
step. -/
def roundedSum (sum : Binary64) (unit : Nat) : List Binary64 → Except Fault Binary64
  | [] => .ok sum
  | x :: xs =>
    match Binary64.ofNat unit with
    | .infinite _ => .error .hugeNumber
    | u => roundedSum (sum.add (x.mul u)) (60 * unit) xs

/-- The number with a fraction that a text without a sign stands for. -/
def unsignedFloat (body : Text) : Except Fault Binary64 :=
  if body = ".inf".toList then .ok (.infinite false)
  else if body = ".nan".toList then .ok .nan
  else if body.elem ':' then do
    let xs ← (Text.split ':' body).mapM number
    roundedSum (.zero false) 1 xs.reverse
  else number body

/-- The number with a fraction that a text stands for. -/
def floatOfText (t : Text) : Except Fault Binary64 :=
  let t := Text.lower (ungrouped t)
  if t.isEmpty then .error .emptyNumber
  else
    let (negative, body) := signed t
    (unsignedFloat body).map fun x => if negative then x.neg else x

end Yaml

end TreeLint
