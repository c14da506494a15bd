import TreeLint.Number.Shortest
import TreeLint.Text.Quoted
import TreeLint.Value.Basic

/-!
# Values as JSON

The JSON text of a value, on one line or indented. A pair is a list of two. Strings hold ASCII
only: every other character is written by its UTF-16 units. An empty list or mapping stays on its
line.
-/

namespace TreeLint

namespace Json

/-- A UTF-16 unit as an escape. -/
def escapeUnit (n : Nat) : List Char := '\\' :: 'u' :: hexDigits 4 n

/-- A character inside a JSON string. -/
def escapeChar (c : Char) : List Char :=
  if c = '"' ∨ c = '\\' then ['\\', c]
  else if c = '\n' then ['\\', 'n']
  else if c = '\r' then ['\\', 'r']
  else if c = '\t' then ['\\', 't']
  else if c = '\x0c' then ['\\', 'f']
  else if c = '\x08' then ['\\', 'b']
  else if ' ' ≤ c ∧ c ≤ '~' then [c]
  else if c.toNat < 0x10000 then escapeUnit c.toNat
  else
    let n := c.toNat - 0x10000
    escapeUnit (0xd800 + n / 0x400) ++ escapeUnit (0xdc00 + n % 0x400)

/-- A JSON string. -/
def string (s : String) : String :=
  String.ofList ('"' :: (s.toList.flatMap escapeChar ++ ['"']))

/-- A JSON string with halves of characters in it. -/
def halves (codes : List Nat) : String :=
  let escape (n : Nat) : List Char :=
    if n.isValidChar then escapeChar (Char.ofNat n) else escapeUnit n
  String.ofList ('"' :: (codes.flatMap escape ++ ['"']))

/-- A JSON number with a fraction. -/
def number : Binary64 → String
  | .infinite s => if s then "-Infinity" else "Infinity"
  | .nan => "NaN"
  | x => x.text

/-- A scalar. -/
def scalar : Scalar → String
  | .null => "null"
  | .bool b => if b then "true" else "false"
  | .int n => toString n
  | .float x => number x
  | .str s => string s
  | .halves codes => halves codes
  | .foreign f => string f.text

/-- A key, which is always a string. -/
def key : Scalar → String
  | .str s => string s
  | .halves codes => halves codes
  | .foreign f => string f.text
  | k => string (scalar k)

/-- How a text is laid out: on one line, or with each entry on a line of its own, indented by a
number of spaces for each level. -/
inductive Layout where
  | oneLine
  | indented (spaces : Nat)
deriving DecidableEq, Repr

/-- What is written before an entry at a level. -/
def Layout.newline : Layout → Nat → String
  | .oneLine, _ => ""
  | .indented n, level => "\n" ++ String.ofList (List.replicate (n * level) ' ')

/-- What is written between two entries at a level. -/
def Layout.separator : Layout → Nat → String
  | .oneLine, _ => ", "
  | l, level => "," ++ l.newline level

/-- The entries of a list or a mapping between their brackets. -/
def block (l : Layout) (level : Nat) (left right : String) (parts : List String) : String :=
  if parts.isEmpty then left ++ right
  else left ++ l.newline (level + 1) ++ (l.separator (level + 1)).intercalate parts
    ++ l.newline level ++ right

mutual
/-- A value at a level. -/
def value (l : Layout) (level : Nat) : Value → String
  | .scalar s => scalar s
  | .list xs => block l level "[" "]" (items l (level + 1) xs)
  | .pair a b => block l level "[" "]" [value l (level + 1) a, value l (level + 1) b]
  | .map es => block l level "\x7b" "\x7d" (entries l (level + 1) es)
/-- The items of a list. -/
def items (l : Layout) (level : Nat) : List Value → List String
  | [] => []
  | x :: xs => value l level x :: items l level xs
/-- The entries of a mapping. -/
def entries (l : Layout) (level : Nat) : List (Scalar × Value) → List String
  | [] => []
  | (k, v) :: es => (key k ++ ": " ++ value l level v) :: entries l level es
end

end Json

/-- The JSON text of a value. -/
def Value.json (l : Json.Layout) (v : Value) : String := Json.value l 0 v

end TreeLint
