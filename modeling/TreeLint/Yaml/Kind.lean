import TreeLint.Text.Basic

/-!
# Kinds of nodes

A node of a YAML document is of a kind, which a tag may name. The kind of a scalar without a tag
is read off its text when it is written without quotes, by the rules of version 1.1 of the format
(`Kind.ofPlain`): the spellings of null and of the truth values, whole numbers in four bases and
in base sixty, numbers with a fraction, dates, and some marks that stand alone. Everything else is
a string. A line feed at the end does not change the kind.
-/

namespace TreeLint

namespace Yaml

/-- A kind of nodes. -/
inductive Kind where
  | null
  | bool
  | int
  | float
  | timestamp
  | str
  | binary
  | seq
  | map
  | set
  | omap
  | pairs
  /-- The mark `<<`, a key under which other mappings are merged in. -/
  | merge
  /-- The mark `=`, a key under which a mapping has its own text. -/
  | value
  /-- Any other kind; its nodes stand for nothing. -/
  | other
deriving DecidableEq, Repr

/-- The kinds that have a name in the vocabulary of the format. -/
def Kind.names : List (String × Kind) :=
  [("null", .null), ("bool", .bool), ("int", .int), ("float", .float),
    ("timestamp", .timestamp), ("str", .str), ("binary", .binary), ("seq", .seq), ("map", .map),
    ("set", .set), ("omap", .omap), ("pairs", .pairs), ("merge", .merge), ("value", .value)]

/-- What the tags of the vocabulary of the format start with. -/
def vocabulary : Text := "tag:yaml.org,2002:".toList

/-- The kind that a tag names. -/
def Kind.ofTag (tag : Text) : Kind :=
  if vocabulary.isPrefixOf tag then
    (Kind.names.lookup (String.ofList (tag.drop vocabulary.length))).getD .other
  else .other

/-! ### Numbers -/

/-- A text without the sign at its front. -/
def unsigned : Text → Text
  | '-' :: rest => rest
  | '+' :: rest => rest
  | t => t

/-- Whether a character is a hexadecimal digit. -/
def isHex (c : Char) : Bool :=
  c.isDigit || decide ('a' ≤ c ∧ c ≤ 'f') || decide ('A' ≤ c ∧ c ≤ 'F')

/-- Whether digits of a class are given, underscores allowed. -/
def areDigits (isDigit : Char → Bool) (t : Text) : Bool :=
  !t.isEmpty && t.all fun c => isDigit c || c == '_'

/-- Whether decimal digits are given, underscores allowed but not at the front. -/
def startsDecimal (t : Text) : Bool := t.head?.any Char.isDigit && areDigits Char.isDigit t

/-- Whether a segment counts sixtieths: one or two digits, below sixty. -/
def isSixtieth : Text → Bool
  | [a] => a.isDigit
  | [a, b] => decide ('0' ≤ a ∧ a ≤ '5') && b.isDigit
  | _ => false

/-- Whether a text is a whole number. -/
def isInt (t : Text) : Bool :=
  match unsigned t with
  | '0' :: 'b' :: ds => areDigits (fun c => c == '0' || c == '1') ds
  | '0' :: 'x' :: ds => areDigits isHex ds
  | ['0'] => true
  | '0' :: ds => areDigits (fun c => decide ('0' ≤ c ∧ c ≤ '7')) ds
  | body =>
    match Text.split ':' body with
    | ds :: segs => startsDecimal ds && segs.all isSixtieth
    | [] => false

/-- Whether a text is the exponent behind a fraction, which needs its sign, or nothing. -/
def isExponent : Text → Bool
  | [] => true
  | e :: s :: ds =>
    (e == 'e' || e == 'E') && (s == '-' || s == '+') && !ds.isEmpty && ds.all Char.isDigit
  | [_] => false

/-- The text behind the digits of a fraction. -/
def behindFraction (t : Text) : Text := t.dropWhile fun c => c.isDigit || c == '_'

/-- Whether a text is a number with a point behind some digits. In base sixty there is no
exponent. -/
def isPointed (t : Text) : Bool :=
  match t.dropWhile (· != '.') with
  | [] => false
  | _ :: fraction =>
    match Text.split ':' (t.takeWhile (· != '.')) with
    | [ds] => startsDecimal ds && isExponent (behindFraction fraction)
    | ds :: segs =>
      startsDecimal ds && segs.all isSixtieth && (behindFraction fraction).isEmpty
    | [] => false

/-- The spellings of the number that is too large for all others. -/
def infinityWords : List String := [".inf", ".Inf", ".INF"]

/-- The spellings of what is no number. -/
def nanWords : List String := [".nan", ".NaN", ".NAN"]

/-- Whether a text is a number with a fraction. -/
def isFloat (t : Text) : Bool :=
  infinityWords.contains (String.ofList (unsigned t)) || nanWords.contains (String.ofList t) ||
    match t with
    | '.' :: d :: rest => d.isDigit && isExponent (behindFraction rest)
    | _ => isPointed (unsigned t)

/-! ### Dates -/

/-- What is left behind exactly `n` digits. -/
def afterExactly : Nat → Text → Option Text
  | 0, t => some t
  | n + 1, c :: rest => if c.isDigit then afterExactly n rest else none
  | _ + 1, [] => none

/-- What is left behind one or two digits. -/
def afterDigits : Text → Option Text
  | [] => none
  | a :: rest =>
    if !a.isDigit then none
    else
      match rest with
      | [] => some []
      | b :: tail => some (if b.isDigit then tail else rest)

/-- What is left behind a character. -/
def afterChar (c : Char) : Text → Option Text
  | d :: rest => if d = c then some rest else none
  | [] => none

/-- A text without the blanks at its front. -/
def withoutBlanks (t : Text) : Text := t.dropWhile fun c => c == ' ' || c == '\t'

/-- Whether a text is a time zone: none at all, `Z`, or a distance in hours and minutes. -/
def isZone (t : Text) : Bool :=
  match withoutBlanks t with
  | [] => t.isEmpty
  | ['Z'] => true
  | s :: rest =>
    (s == '-' || s == '+') &&
      match afterDigits rest with
      | some [] => true
      | some tail => (afterChar ':' tail).bind (afterExactly 2) == some []
      | none => false

/-- Whether a text is a time of day, with a zone if there is one. -/
def isTime (t : Text) : Bool :=
  match (do
    let t ← afterDigits t
    let t ← afterChar ':' t
    let t ← afterExactly 2 t
    let t ← afterChar ':' t
    afterExactly 2 t) with
  | some ('.' :: rest) => isZone (rest.dropWhile Char.isDigit)
  | some rest => isZone rest
  | none => false

/-- Whether a text is what follows the day in a date with a time. -/
def isTimePart : Text → Bool
  | [] => false
  | c :: rest =>
    if c == 'T' || c == 't' then isTime rest
    else (c == ' ' || c == '\t') && isTime (withoutBlanks rest)

/-- What is left behind a date; month and day may have one digit. -/
def afterDate (t : Text) : Option Text := do
  let t ← afterExactly 4 t
  let t ← afterChar '-' t
  let t ← afterDigits t
  let t ← afterChar '-' t
  afterDigits t

/-- What is left behind a date with a month and a day of two digits. -/
def afterFullDate (t : Text) : Option Text := do
  let t ← afterExactly 4 t
  let t ← afterChar '-' t
  let t ← afterExactly 2 t
  let t ← afterChar '-' t
  afterExactly 2 t

/-- Whether a text is a date, or a date with a time. -/
def isDate (t : Text) : Bool := afterFullDate t == some [] || (afterDate t).any isTimePart

/-! ### Words -/

/-- The spellings of the truth values, in lower case, capitalized, and in upper case. -/
def truthWords : List String :=
  ["yes", "Yes", "YES", "no", "No", "NO", "true", "True", "TRUE", "false", "False", "FALSE",
    "on", "On", "ON", "off", "Off", "OFF"]

/-- The spellings of null; nothing is one of them. -/
def nullWords : List String := ["", "~", "null", "Null", "NULL"]

/-- The marks that stand for nothing when they stand alone. -/
def idleWords : List String := ["!", "&", "*"]

/-- The kind of a text, by what it spells. -/
def Kind.ofWord (t : Text) : Kind :=
  let s := String.ofList t
  if nullWords.contains s then .null
  else if truthWords.contains s then .bool
  else if idleWords.contains s then .other
  else if s = "=" then .value
  else if s = "<<" then .merge
  else if isFloat t then .float
  else if isInt t then .int
  else if isDate t then .timestamp
  else .str

/-- A text without the line feed at its end, if that leaves something. -/
def withoutLastLine (t : Text) : Text :=
  if t.getLast? == some '\n' && t.length != 1 then t.dropLast else t

/-- The kind of a scalar without quotes. -/
def Kind.ofPlain (t : Text) : Kind := Kind.ofWord (withoutLastLine t)

end Yaml

end TreeLint
