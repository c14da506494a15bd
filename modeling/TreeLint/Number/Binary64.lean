/-!
# Double-precision numbers

A configuration may hold numbers with a fraction. They are kept as exact binary numbers
`± mantissa · 2 ^ exponent` with the width of the double-precision format, so that reading one
from decimal digits is a computation on natural numbers: form the exact quotient, scale it to 53
bits, and round to the nearest, a tie to the even neighbour.
-/

namespace TreeLint

/-- A number of the double-precision format. -/
inductive Binary64 where
  /-- The number `± mantissa · 2 ^ exponent`. -/
  | finite (negative : Bool) (mantissa : Nat) (exponent : Int)
  /-- A number too large for the format. -/
  | infinite (negative : Bool)
  /-- Not a number. -/
  | nan
deriving DecidableEq, Repr

/-- The quotient of two natural numbers rounded to the nearest, a tie to the even neighbour. -/
def roundQuotient (num den : Nat) : Nat :=
  let q := num / den
  let r := num % den
  if 2 * r < den then q
  else if den < 2 * r then q + 1
  else if q % 2 = 0 then q
  else q + 1

namespace Binary64

/-- The number zero. -/
def zero (negative : Bool) : Binary64 := .finite negative 0 (-1074)

/-- A quotient divided by `base ^ e`, as numerator and denominator. -/
def scale (base num den : Nat) (e : Int) : Nat × Nat :=
  if 0 ≤ e then (num, den * Nat.pow base e.toNat) else (num * Nat.pow base (-e).toNat, den)

/-- The exponent that gives a positive quotient a mantissa of 53 bits, or the least exponent of
the format if that is larger. -/
def exponentFor (num den : Nat) : Int :=
  let e : Int := (num.log2 : Int) - (den.log2 : Int) - 52
  let s := scale 2 num den e
  max (if s.1 < Nat.pow 2 52 * s.2 then e - 1 else e) (-1074)

/-- The number nearest to a quotient. -/
def ofRatio (negative : Bool) (num den : Nat) : Binary64 :=
  if num = 0 then zero negative
  else
    let e := exponentFor num den
    let s := scale 2 num den e
    let m := roundQuotient s.1 s.2
    let (m, e) := if m = Nat.pow 2 53 then (Nat.pow 2 52, e + 1) else (m, e)
    if 971 < e then .infinite negative else .finite negative m e

/-- The number nearest to `digits · 10 ^ exponent`. Exponents far outside the format are
answered without forming the power. -/
def ofDecimal (negative : Bool) (digits : Nat) (exponent : Int) : Binary64 :=
  if digits = 0 then zero negative
  else if 400 < exponent then .infinite negative
  else if exponent < -(400 + (digits.log2 : Int)) then zero negative
  else
    let s := scale 10 digits 1 (-exponent)
    ofRatio negative s.1 s.2

/-- The number with its sign changed. -/
def neg : Binary64 → Binary64
  | .finite s m e => .finite (!s) m e
  | .infinite s => .infinite (!s)
  | .nan => .nan

/-- The absolute value of a finite number as numerator and denominator. -/
def ratio (mantissa : Nat) (exponent : Int) : Nat × Nat :=
  scale 2 mantissa 1 (-exponent)

/-- The number nearest to a natural number. -/
def ofNat (n : Nat) : Binary64 := ofRatio false n 1

/-- The sum of two numbers. A sum that vanishes is negative only if both numbers are. -/
def add : Binary64 → Binary64 → Binary64
  | .finite s m e, .finite s' m' e' =>
    let a := ratio m e
    let b := ratio m' e'
    let x : Int := a.1 * b.2
    let y : Int := b.1 * a.2
    let sum := (if s then -x else x) + (if s' then -y else y)
    if sum = 0 then zero (s && s') else ofRatio (decide (sum < 0)) sum.natAbs (a.2 * b.2)
  | .nan, _ | _, .nan => .nan
  | .infinite s, .infinite s' => if s = s' then .infinite s else .nan
  | .infinite s, .finite _ _ _ | .finite _ _ _, .infinite s => .infinite s

/-- The product of two numbers. -/
def mul : Binary64 → Binary64 → Binary64
  | .finite s m e, .finite s' m' e' =>
    let a := ratio m e
    let b := ratio m' e'
    ofRatio (s != s') (a.1 * b.1) (a.2 * b.2)
  | .nan, _ | _, .nan => .nan
  | .infinite s, .infinite s' => .infinite (s != s')
  | .infinite s, .finite s' m _ | .finite s m _, .infinite s' =>
    if m = 0 then .nan else .infinite (s != s')

/-- Whether a number is a zero of either sign. -/
def isZero : Binary64 → Bool
  | .finite _ m _ => m == 0
  | _ => false

/-- Whether a number equals an integer. -/
def equalsInt (x : Binary64) (n : Int) : Bool :=
  match x with
  | .finite s m e =>
    let r := ratio m e
    (r.1 : Int) == n.natAbs * r.2 && (m == 0 || s == decide (n < 0))
  | _ => false

/-- Equality of numbers: the two zeros are equal, and a not-a-number equals nothing. -/
def equals : Binary64 → Binary64 → Bool
  | .finite s m e, .finite s' m' e' => m == m' && e == e' && (m == 0 || s == s')
  | .infinite s, .infinite s' => s == s'
  | _, _ => false

end Binary64

end TreeLint
