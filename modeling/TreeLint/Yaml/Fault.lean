import TreeLint.Text.Halves

/-!
# Faults of YAML documents

Why a text gives no value. Most texts that cannot be read break the grammar, or hold a node that
stands for nothing; these faults have no wording of their own. Other faults keep the grammar: an
escape of a code point that does not exist, a number or a date that cannot be read. They have
their wording, unless they are grave.

A grave fault is one that the format does not foresee, such as a truth value spelled like none.
It ends not only the reading but also the work that the document was read for.
-/

namespace TreeLint

namespace Yaml

/-- A part of a date or of a time of day. -/
inductive DatePart where
  | year
  | month
  | day
  | hour
  | minute
  | second
deriving DecidableEq, Repr

/-- Why a text gives no value. -/
inductive Fault where
  /-- The text is no document, or a node of it stands for nothing. -/
  | malformed
  /-- The bytes are no text. -/
  | notUtf8
  /-- An escape names a code point behind the last character. -/
  | noCharacter
  /-- An escape names a code that does not fit into 31 bits. -/
  | hugeCode
  /-- What should be digits in a base are none. -/
  | noInteger (base : Nat) (given : Text)
  /-- A whole number has too many decimal digits. -/
  | tooManyDigits (count : Nat)
  /-- What should be a number with a fraction is none. -/
  | noNumber (given : Text)
  /-- A number has no text at all. -/
  | emptyNumber
  /-- A number in base sixty has too many places for a fraction. -/
  | hugeNumber
  /-- What should be a truth value is none. -/
  | noTruthValue
  /-- What should be a date is none. -/
  | noDate
  /-- A mapping stands for a date. -/
  | dateOfMapping
  /-- A part of a date is out of range. -/
  | badDatePart (part : DatePart)
  /-- A time zone is a day or more away, in minutes. -/
  | badZone (minutes : Int)
deriving DecidableEq, Repr

/-- The wording of a part of a date that is out of range. -/
def DatePart.message : DatePart → String
  | .year => "year 0 is out of range"
  | .month => "month must be in 1..12"
  | .day => "day is out of range for month"
  | .hour => "hour must be in 0..23"
  | .minute => "minute must be in 0..59"
  | .second => "second must be in 0..59"

/-- A distance in time, in whole days and seconds of a day. -/
def durationText (minutes : Int) : String :=
  let days := minutes.fdiv 1440
  let seconds := 60 * minutes.fmod 1440
  let parts := (if days = 0 then [] else [s!"days={days}"]) ++
    (if seconds = 0 then [] else [s!"seconds={seconds}"])
  "datetime.timedelta(" ++ (if parts.isEmpty then "0" else ", ".intercalate parts) ++ ")"

/-- The longest text of a whole number that is quoted in full. -/
def quoteLimit : Nat := 200

namespace Fault

/-- The wording of a fault that keeps the grammar. -/
def message? : Fault → Option String
  | .noCharacter => some "chr() arg not in range(0x110000)"
  | .noInteger base given =>
    some (s!"invalid literal for int() with base {base}: " ++
      String.ofList ((Text.quotedCodes (Text.codes given)).take quoteLimit))
  | .tooManyDigits count =>
    some ("Exceeds the limit (4300 digits) for integer string conversion: " ++
      s!"value has {count} digits; use sys.set_int_max_str_digits() to increase the limit")
  | .noNumber given =>
    some ("could not convert string to float: " ++
      String.ofList (Text.quotedCodes (Text.codes given)))
  | .badDatePart part => some part.message
  | .badZone minutes =>
    some ("offset must be a timedelta strictly between -timedelta(hours=24) and " ++
      "timedelta(hours=24), not " ++ durationText minutes ++ ".")
  | _ => none

/-- Whether a fault ends the work that the document was read for. -/
def isGrave : Fault → Bool
  | .hugeCode | .emptyNumber | .hugeNumber | .noTruthValue | .noDate | .dateOfMapping => true
  | _ => false

end Fault

end Yaml

end TreeLint
