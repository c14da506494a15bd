import TreeLint.Number.Binary64

/-!
# The shortest decimal text of a number

A finite number is written with the fewest decimal digits that read back as the same number; of
several such digit strings the nearest to the number is taken. `Binary64.shortest` finds the
digits by trying grids of one digit, two digits and so on: on each grid only the two neighbours
of the number can be nearest. `Binary64.text` lays the digits out.
-/

namespace TreeLint

namespace Binary64

/-- Whether `num / den < 10 ^ k`. -/
def ltPowTen (num den : Nat) (k : Int) : Bool :=
  let s := scale 10 num den k
  decide (s.1 < s.2)

/-- The least power of ten above a positive quotient. The estimate from the binary logarithms is
off by at most a few units, which the search covers. -/
def decimalPoint (num den : Nat) : Int :=
  let guess : Int := ((num.log2 : Int) - (den.log2 : Int)) * 30103 / 100000
  (([-2, -1, 0, 1, 2, 3].map (guess + ·)).find? (ltPowTen num den)).getD guess

/-- The nearest multiple of `10 ^ g` that reads back as the number, if one of the two neighbours
does. -/
def onGrid (x : Binary64) (num den : Nat) (g : Int) : Option Nat :=
  let s := scale 10 num den g
  let low := s.1 / s.2
  let hit (c : Nat) : Bool := decide (ofDecimal false c g = x)
  match hit low, hit (low + 1) with
  | true, true => some (roundQuotient s.1 s.2)
  | true, false => some low
  | false, true => some (low + 1)
  | false, false => none

/-- The fewest digits, and the power of ten of the last one, that read back as a positive
number. `left` counts the grids still to try. -/
def searchDigits (x : Binary64) (num den : Nat) (point : Int) : Nat → Nat → Nat × Int
  | 0, n =>
    let s := scale 10 num den (point - n)
    (roundQuotient s.1 s.2, point - n)
  | left + 1, n =>
    match onGrid x num den (point - n) with
    | some c => (c, point - n)
    | none => searchDigits x num den point left (n + 1)

/-- The shortest digits of `mantissa · 2 ^ exponent`, with the power of ten of the last one. -/
def shortest (mantissa : Nat) (exponent : Int) : Nat × Int :=
  let r := ratio mantissa exponent
  searchDigits (.finite false mantissa exponent) r.1 r.2 (decimalPoint r.1 r.2) 16 1

/-- The digits of a positive number without trailing zeros, and the place of the decimal point
counted from the front of the digits. -/
def digitsAndPoint (mantissa : Nat) (exponent : Int) : List Char × Int :=
  let (c, g) := shortest mantissa exponent
  let ds := Nat.toDigits 10 c
  ((ds.reverse.dropWhile (· == '0')).reverse, ds.length + g)

/-- An exponent with its sign and at least two digits. -/
def exponentText (e : Int) : List Char :=
  let ds := Nat.toDigits 10 e.natAbs
  'e' :: (if e < 0 then '-' else '+') :: (if ds.length < 2 then '0' :: ds else ds)

/-- Lay out digits with a decimal point. Numbers from `10⁻⁴` up to `10¹⁶` are written
positionally, with a digit on both sides of the point, all others with an exponent. -/
def layout (ds : List Char) (point : Int) : List Char :=
  if -4 < point ∧ point ≤ 16 then
    if point ≤ 0 then '0' :: '.' :: (List.replicate (-point).toNat '0' ++ ds)
    else if (ds.length : Int) ≤ point then
      ds ++ List.replicate (point.toNat - ds.length) '0' ++ ['.', '0']
    else ds.take point.toNat ++ '.' :: ds.drop point.toNat
  else
    match ds with
    | [] => []
    | [d] => d :: exponentText (point - 1)
    | d :: rest => d :: '.' :: (rest ++ exponentText (point - 1))

/-- The text of a number. -/
def text : Binary64 → String
  | .finite s m e =>
    let body := if m = 0 then ['0', '.', '0'] else (fun p => layout p.1 p.2) (digitsAndPoint m e)
    String.ofList (if s then '-' :: body else body)
  | .infinite s => if s then "-inf" else "inf"
  | .nan => "nan"

end Binary64

end TreeLint
