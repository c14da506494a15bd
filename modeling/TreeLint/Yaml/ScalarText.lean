import TreeLint.Yaml.Cursor

/-!
# Texts of scalars

How the text of a scalar is written: plain, in single or double quotes, or as a block of lines.
Plain and quoted scalars may go over several lines, and then a line break is a space, unless more
of them follow each other.

A block of lines starts with `|`, which keeps its line breaks, or `>`, which folds them as in the
other scalars, but not next to a line that starts with a blank. A sign behind it tells what becomes
of the line breaks at the end: by itself the first of them is kept, `-` keeps none, and `+` keeps
all. A digit tells how far the lines are indented.
-/

namespace TreeLint

namespace Yaml

namespace Scan

/-- What line breaks inside a scalar count as: a single line feed is a space, and of several the
first is dropped. -/
def folded (first : Char) (more : Text) : Text :=
  if first != '\n' then first :: more else if more.isEmpty then [' '] else more

/-! ### Plain scalars -/

/-- The marks that end a plain scalar inside a flow collection, where the colon is not among
them. -/
def flowMarks : List Char := [',', '?', '[', ']', '\x7b', '\x7d']

/-- Whether a colon ends a plain scalar before what comes next. -/
def colonEnds (flow : Bool) (next : Option Char) : Bool :=
  endsWord next || (flow && next.any fun c => c != '?' && flowMarks.contains c)

/-- How many characters of a plain scalar come next. -/
def plainLength (flow : Bool) : Text → Nat
  | [] => 0
  | c :: rest =>
    if isBlank c || (c == ':' && colonEnds flow rest.head?) || (flow && flowMarks.contains c) then 0
    else plainLength flow rest + 1

/-- Take the next part of a plain scalar. -/
def plainPart : Scan Text := do
  if (← peek) == some '#' then return []
  let s ← get
  let n := plainLength (decide (0 < s.flow)) s.rest
  if (← peek n) == some ':' then
    let _ ← peek (n + 1)
  if n = 0 then return []
  allowKey false
  skip n
  return s.rest.take n

/-- Go over line breaks and the blanks at the front of lines; `none` if a document mark comes. -/
def plainBreaks : Nat → Text → Scan (Option Text)
  | 0, _ => malformed
  | fuel + 1, breaks => do
    spaces
    match ← lineBreak with
    | none => return some breaks.reverse
    | some b => if ← atSeparator then return none else plainBreaks fuel (b :: breaks)

/-- Go over the blanks behind a part of a plain scalar, and tell what they count as. -/
def plainSpaces : Scan Text := do
  let blanks ← takeWhile (· == ' ')
  match ← lineBreak with
  | none => return blanks
  | some first =>
    allowKey true
    if ← atSeparator then return []
    match ← plainBreaks (← enough) [] with
    | some more => return folded first more
    | none => return []

/-- Read the parts of a plain scalar; the text so far is held in reverse. -/
def plainParts (indent : Int) : Nat → Text → Text → Scan Text
  | 0, _, _ => malformed
  | fuel + 1, blanks, text => do
    let part ← plainPart
    if part.isEmpty then return text.reverse
    let text := part.reverse ++ (blanks.reverse ++ text)
    let blanks ← plainSpaces
    if blanks.isEmpty then return text.reverse
    let next ← peek
    let s ← get
    if next == some '#' || (s.flow == 0 && decide (s.column < indent)) then return text.reverse
    plainParts indent fuel blanks text

/-- Read a plain scalar. -/
def plainScalar : Scan Token := do
  let s ← get
  return .scalar true (Text.guarded (← plainParts (s.indent + 1) (← enough) [] []))

/-! ### Quoted scalars -/

/-- Go over line breaks inside quotes. A document mark must not stand there. -/
def quotedBreaks : Nat → Text → Scan Text
  | 0, _ => malformed
  | fuel + 1, breaks => do
    if ← atSeparator then malformed
    let _ ← takeWhile fun c => c == ' ' || c == '\t'
    match ← lineBreak with
    | none => return breaks.reverse
    | some b => quotedBreaks fuel (b :: breaks)

/-- The characters that a backslash and a letter stand for. -/
def escapes : List (Char × Char) :=
  [('0', '\x00'), ('a', '\x07'), ('b', '\x08'), ('t', '\t'), ('\t', '\t'), ('n', '\n'),
    ('v', '\x0b'), ('f', '\x0c'), ('r', '\r'), ('e', '\x1b'), (' ', ' '), ('"', '"'),
    ('\\', '\\'), ('/', '/'), ('N', '\x85'), ('_', '\xa0'), ('L', '\u2028'), ('P', '\u2029')]

/-- How many hexadecimal digits follow a letter behind a backslash. -/
def codeLength : Char → Option Nat
  | 'x' => some 2
  | 'u' => some 4
  | 'U' => some 8
  | _ => none

/-- The value of a hexadecimal digit. -/
def hexValue? (c : Char) : Option Nat :=
  if c.isDigit then some (c.toNat - '0'.toNat)
  else if 'a' ≤ c ∧ c ≤ 'f' then some (c.toNat - 'a'.toNat + 10)
  else if 'A' ≤ c ∧ c ≤ 'F' then some (c.toNat - 'A'.toNat + 10)
  else none

/-- Look at `left` hexadecimal digits, from the place `i` on; `code` is the code of those
before. -/
def hexCode (i code : Nat) : Nat → Scan Nat
  | 0 => return code
  | left + 1 => do
    match (← peek i).bind hexValue? with
    | some d => hexCode (i + 1) (16 * code + d) left
    | none => malformed

/-- Read the hexadecimal digits of an escape. A code has to be that of a character, but halves of
pairs are let pass. -/
def escapedCode (n : Nat) : Scan Nat := do
  let code ← hexCode 0 0 n
  if 0x80000000 ≤ code then throw .hugeCode
  else if 0x110000 ≤ code then throw .noCharacter
  skip n
  return code

/-- Read what follows a backslash. -/
def escaped : Scan (List Nat) := do
  match ← peek with
  | none => malformed
  | some c =>
    match escapes.lookup c, codeLength c with
    | some d, _ =>
      advance
      return [d.toNat]
    | none, some n =>
      advance
      return [← escapedCode n]
    | none, none =>
      if (← lineBreak).isSome then return Text.toCodes (← quotedBreaks (← enough) []) else malformed

/-- Read blanks and line breaks inside quotes. The text must not end there. -/
def quotedSpaces : Scan (List Nat) := do
  let blanks ← takeWhile fun c => c == ' ' || c == '\t'
  if (← peek).isNone then malformed
  match ← lineBreak with
  | none => return Text.toCodes blanks
  | some first => return Text.toCodes (folded first (← quotedBreaks (← enough) []))

/-- Read a scalar up to its closing quote; the codes so far are held in reverse. -/
def quotedCodes (quote : Char) : Nat → List Nat → Scan (List Nat)
  | 0, _ => malformed
  | fuel + 1, codes => do
    match ← peek with
    | none => malformed
    | some c =>
      if c = quote then
        if quote == '\x27' && (← peek 1) == some quote then
          skip 2
          quotedCodes quote fuel (quote.toNat :: codes)
        else
          advance
          return codes.reverse
      else if c == '\\' && quote == '"' then
        advance
        let more ← escaped
        quotedCodes quote fuel (more.reverse ++ codes)
      else if isBlank c then
        let more ← quotedSpaces
        quotedCodes quote fuel (more.reverse ++ codes)
      else
        advance
        quotedCodes quote fuel (c.toNat :: codes)

/-- Read a scalar in quotes. -/
def quotedScalar (quote : Char) : Scan Token := do
  advance
  return .scalar false (Text.ofCodes (← quotedCodes quote (← enough) []))

/-! ### Scalars as blocks of lines -/

/-- What becomes of the line breaks at the end of a block. -/
inductive Chomping where
  | strip
  | clip
  | keep
deriving DecidableEq, Repr

/-- Read the sign of a block. -/
def chomping : Scan Chomping := do
  match ← peek with
  | some '+' =>
    advance
    return .keep
  | some '-' =>
    advance
    return .strip
  | _ => return .clip

/-- Read the digit of a block, which is not zero. -/
def increment : Scan (Option Nat) := do
  match ← peek with
  | some c =>
    if c == '0' then malformed
    else if c.isDigit then
      advance
      return some (c.toNat - '0'.toNat)
    else return none
  | none => return none

/-- Read the sign and the digit of a block, in either order, and the rest of their line. -/
def blockHeader : Scan (Chomping × Option Nat) := do
  let sign ← chomping
  let digit ← increment
  let sign ← if sign = .clip ∧ digit.isSome then chomping else pure sign
  if !(← peek).all isSpaceOrBreak then malformed
  spaces
  comment
  if !endsLine (← peek) then malformed
  let _ ← lineBreak
  return (sign, digit)

/-- Go over spaces up to a column. -/
def spacesTo (column : Nat) : Scan Unit := do
  let s ← get
  let run := (s.rest.takeWhile (· == ' ')).length
  skip (min run (column - s.column))

/-- Go over empty lines of a block that is indented to a column. -/
def blockBreaks (column : Nat) : Nat → Text → Scan Text
  | 0, _ => malformed
  | fuel + 1, breaks => do
    spacesTo column
    match ← lineBreak with
    | none => return breaks.reverse
    | some b => blockBreaks column fuel (b :: breaks)

/-- Go over the empty lines at the front of a block, and tell how far the text is indented. -/
def blockIndent : Nat → Nat → Text → Scan (Nat × Text)
  | 0, _, _ => malformed
  | fuel + 1, widest, breaks => do
    let run ← takeWhile (· == ' ')
    let s ← get
    let widest := if run.isEmpty then widest else max widest s.column
    match ← lineBreak with
    | none => return (widest, breaks.reverse)
    | some b => blockIndent fuel widest (b :: breaks)

/-- Whether a line of a block starts here. -/
def atBlockLine (column : Nat) : Scan Bool := do
  let next ← peek
  return (← get).column == column && next.isSome

/-- The text of a block, in reverse, the break behind its last line and the empty lines behind
that. -/
structure BlockText where
  text : Text := []
  last : Option Char := none
  breaks : Text := []

/-- Read the lines of a block that is indented to a column. `breaks` are the line breaks before the
next line. -/
def blockLines (fold : Bool) (column : Nat) : Nat → Text → Text → Scan BlockText
  | 0, _, _ => malformed
  | fuel + 1, breaks, text => do
    let flush (c : Option Char) : Bool := !c.any fun c => c == ' ' || c == '\t'
    let first ← peek
    let line ← takeWhile fun c => !isBreak c
    let text := line.reverse ++ (breaks.reverse ++ text)
    let last ← lineBreak
    let breaks ← blockBreaks column (← enough) []
    if ← atBlockLine column then
      let next ← peek
      if fold && last == some '\n' && flush first && flush next then
        blockLines fold column fuel breaks (if breaks.isEmpty then ' ' :: text else text)
      else blockLines fold column fuel breaks (last.toList ++ text)
    else return { text, last, breaks }

/-- Read a scalar that is a block of lines. It is indented further than the block around it, and
as far as its first line unless a digit tells otherwise. -/
def blockScalar (fold : Bool) : Scan Token := do
  advance
  let (sign, digit) ← blockHeader
  let least := ((← get).indent + 1).toNat.max 1
  let (column, breaks) ← match digit with
    | some n =>
      let column := least + n - 1
      pure (column, ← blockBreaks column (← enough) [])
    | none =>
      let (widest, breaks) ← blockIndent (← enough) 0 []
      pure (max least widest, breaks)
  let block ← if ← atBlockLine column then blockLines fold column (← enough) breaks []
    else pure { breaks }
  let kept : Text := match sign with
    | .strip => []
    | .clip => block.last.toList
    | .keep => block.last.toList ++ block.breaks
  return .scalar false (Text.guarded (block.text.reverse ++ kept))

end Scan

end Yaml

end TreeLint
