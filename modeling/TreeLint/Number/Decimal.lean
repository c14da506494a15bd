/-!
# Whole numbers inside messages

A whole number is told by its decimal digits, of which there may be 4300. A longer one cannot be
shown, and then the message that it should stand in is replaced as a whole.
-/

namespace TreeLint

/-- Whether a whole number is short enough to be shown. -/
def isShort (n : Int) : Bool := decide (n.natAbs < Nat.pow 10 4300)

/-- The message about a whole number that is too long to be shown. -/
def tooLongToShow : String :=
  "Exceeds the limit (4300 digits) for integer string conversion; " ++
    "use sys.set_int_max_str_digits() to increase the limit"

/-- A message that holds whole numbers. If one of them cannot be shown, the message says only
that. -/
def tellNumbers (numbers : List Int) (message : String) : String :=
  if numbers.all isShort then message else tooLongToShow

end TreeLint
