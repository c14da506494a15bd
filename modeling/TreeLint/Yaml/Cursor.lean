import TreeLint.Yaml.Token

/-!
# A place in a document

Tokens are read by a cursor that goes over the text from left to right. What makes a mapping of a
line is a colon behind its first word, and by then that word has been read. So the place before
every word that may turn out to be a key is remembered, and when the colon comes, the token for a
key is put there. A key has to lie on one line, and within 1024 characters of its colon.

The text may end in a fault of the file. The fault comes up when a character behind the end is
asked for; and the character that follows is always asked for when the cursor moves.
-/

namespace TreeLint

namespace Yaml

/-- A place where a key may have started. -/
structure KeyMark where
  /-- How many tokens stand before it. -/
  token : Nat
  /-- Whether a mapping cannot go on without a key here. -/
  required : Bool
  index : Nat
  line : Nat
  column : Nat
deriving DecidableEq, Repr

/-- The state of reading. -/
structure Cursor where
  /-- The characters still to read. -/
  rest : Text
  /-- The fault behind the last of them. -/
  ending : Option Fault := none
  /-- How many characters the whole text has. -/
  size : Nat := rest.length
  index : Nat := 0
  line : Nat := 0
  column : Nat := 0
  /-- How many flow collections are open. -/
  flow : Nat := 0
  /-- The column of the innermost block, `-1` outside all blocks. -/
  indent : Int := -1
  /-- The columns of the blocks around it, innermost first. -/
  outer : List Int := []
  /-- Whether a key may start here. -/
  keyAllowed : Bool := true
  /-- Where keys may have started, by the number of open flow collections. -/
  marks : List (Nat × KeyMark) := []
  /-- The tokens read so far, the last one first. -/
  tokens : List Token := []
  /-- How many tokens were read. -/
  count : Nat := 0
deriving DecidableEq, Repr

/-- A step of reading. -/
abbrev Scan := StateT Cursor (Except Fault)

namespace Scan

/-- End the reading with the fault that the text breaks the grammar. -/
def malformed {α : Type} : Scan α := throw .malformed

/-- Ask for the next `n` characters, of which there are fewer at the end of the text. -/
def ahead (n : Nat) : Scan Text := do
  let s ← get
  let t := s.rest.take n
  match s.ending with
  | some f => if t.length < n then throw f else return t
  | none => return t

/-- The character `n` places ahead. -/
def peek (n : Nat := 0) : Scan (Option Char) := return (← ahead (n + 1))[n]?

/-- The cursor behind one more character. A byte order mark takes no column. -/
def stepped (s : Cursor) : Cursor :=
  match s.rest with
  | [] => s
  | c :: rest =>
    let s := { s with rest, index := s.index + 1 }
    if isBreak c then { s with line := s.line + 1, column := 0 }
    else if c == '\ufeff' then s
    else { s with column := s.column + 1 }

/-- Go over `n` characters. -/
def skip (n : Nat) : Scan Unit := do
  modify (Nat.repeat stepped n)
  let _ ← peek

/-- Go over one character. -/
def advance : Scan Unit := skip 1

/-- Take the characters as long as they belong to a class. -/
def takeWhile (p : Char → Bool) : Scan Text := do
  let run := (← get).rest.takeWhile p
  skip run.length
  return run

/-- Go over spaces. -/
def spaces : Scan Unit := do
  let _ ← takeWhile (· == ' ')

/-- Go over the rest of a line. -/
def restOfLine : Scan Unit := do
  let _ ← takeWhile fun c => !isBreak c

/-- Go over a comment, if there is one. -/
def comment : Scan Unit := do
  if (← peek) == some '#' then restOfLine

/-- Go over a line break, and tell what it counts as: the line and paragraph separators are kept,
all others are a line feed. -/
def lineBreak : Scan (Option Char) := do
  match ← peek with
  | none => return none
  | some c =>
    if isBreak c then
      advance
      return some (if c == '\x85' then '\n' else c)
    else return none

/-- Whether a document mark stands here. -/
def atMark (mark : String) : Scan Bool := do
  if (← ahead 3) = mark.toList then return endsWord (← peek 3) else return false

/-- Whether a mark that ends a document, or starts the next one, stands here. -/
def atSeparator : Scan Bool := return (← atMark "---") || (← atMark "...")

/-- Put a token behind the others. -/
def push (t : Token) : Scan Unit :=
  modify fun s => { s with tokens := t :: s.tokens, count := s.count + 1 }

/-- Put a token before the one with a number. -/
def insertAt (i : Nat) (t : Token) : Scan Unit :=
  modify fun s =>
    let behind := s.count - i
    { s with
      tokens := s.tokens.take behind ++ t :: s.tokens.drop behind, count := s.count + 1 }

/-- Tell whether a key may start here. -/
def allowKey (b : Bool) : Scan Unit := modify fun s => { s with keyAllowed := b }

/-! ### Keys and indentation -/

/-- Forget the places where no key can have started any more. -/
def forgetStale : Scan Unit := do
  let s ← get
  let stale (m : KeyMark) : Bool := m.line != s.line || decide (1024 < s.index - m.index)
  if s.marks.any fun m => stale m.2 && m.2.required then malformed
  else set { s with marks := s.marks.filter fun m => !stale m.2 }

/-- Forget the place where a key may have started in the innermost collection. -/
def forgetMark : Scan Unit := do
  let s ← get
  if s.marks.any fun m => m.1 == s.flow && m.2.required then malformed
  else set { s with marks := s.marks.filter fun m => m.1 != s.flow }

/-- Remember that a key may start here. -/
def markKey : Scan Unit := do
  if (← get).keyAllowed then
    forgetMark
    modify fun s =>
      let m : KeyMark :=
        { token := s.count, required := s.flow == 0 && s.indent == s.column
          index := s.index, line := s.line, column := s.column }
      { s with marks := (s.flow, m) :: s.marks }

/-- How many blocks end before a column, and the blocks that stay open. -/
def closing (column : Int) (indent : Int) : List Int → Nat × Int × List Int
  | [] => (0, indent, [])
  | out :: outer =>
    if column < indent then
      let (n, indent, outer) := closing column out outer
      (n + 1, indent, outer)
    else (0, indent, out :: outer)

/-- End the blocks that are indented further than a column. Flow collections have no
indentation. -/
def closeBlocks (column : Int) : Scan Unit :=
  modify fun s =>
    if 0 < s.flow then s
    else
      let (n, indent, outer) := closing column s.indent s.outer
      { s with
        indent, outer, tokens := List.replicate n .blockEnd ++ s.tokens, count := s.count + n }

/-- Open a block at a column, unless one is open there. The token goes to place `i`. -/
def openBlock (column i : Nat) (start : Token) : Scan Unit := do
  if (← get).indent < column then
    insertAt i start
    modify fun s => { s with indent := column, outer := s.indent :: s.outer }

/-- Go over blanks, comments and line breaks. Outside flow collections a key may start on every
new line. -/
def skipBetween : Nat → Scan Unit
  | 0 => malformed
  | fuel + 1 => do
    spaces
    comment
    if (← lineBreak).isSome then
      if (← get).flow = 0 then allowKey true
      skipBetween fuel

/-- More steps than there are characters. -/
def enough : Scan Nat := return (← get).size + 1

end Scan

end Yaml

end TreeLint
