import TreeLint.Yaml.Tag

/-!
# The tokens of a document

`Token.ofText` reads a text as tokens. Faults stand in the list where they come up: a token is
known only when no later one can be put before it, so all tokens from the first place where a key
may have started on are known only when that is settled. If reading ends in a fault before,
the fault takes the place of that token.
-/

namespace TreeLint

namespace Yaml

namespace Scan

/-- Read a directive or a document mark, which ends all blocks. -/
def readLimit (read : Scan Token) : Scan Unit := do
  closeBlocks (-1)
  forgetMark
  allowKey false
  push (← read)

/-- Read a document mark. -/
def documentMark (t : Token) : Scan Token := do
  skip 3
  return t

/-- Read the opening bracket of a flow collection. -/
def openFlow (t : Token) : Scan Unit := do
  markKey
  modify fun s => { s with flow := s.flow + 1, keyAllowed := true }
  advance
  push t

/-- Read the closing bracket of a flow collection. -/
def closeFlow (t : Token) : Scan Unit := do
  forgetMark
  modify fun s => { s with flow := s.flow - 1, keyAllowed := false }
  advance
  push t

/-- Read the comma between the entries of a flow collection. -/
def readComma : Scan Unit := do
  allowKey true
  forgetMark
  advance
  push .flowEntry

/-- Read the mark of an entry, a hyphen or a question mark, which may open a block. -/
def readEntry (start t : Token) (keyAllowed : Bool) : Scan Unit := do
  let s ← get
  if s.flow = 0 then
    if !s.keyAllowed then malformed
    openBlock s.column s.count start
  allowKey keyAllowed
  forgetMark
  advance
  push t

/-- Read the colon behind a key. If a key may have started, it did. -/
def readColon : Scan Unit := do
  let s ← get
  match s.marks.lookup s.flow with
  | some m =>
    set { s with marks := s.marks.filter fun x => x.1 != s.flow }
    insertAt m.token .key
    if s.flow = 0 then openBlock m.column m.token .blockMappingStart
    allowKey false
    advance
    push .value
  | none => readEntry .blockMappingStart .value (s.flow == 0)

/-- Read something that may be a key: an anchor, an alias, a tag or a scalar. -/
def readWord (read : Scan Token) : Scan Unit := do
  markKey
  allowKey false
  push (← read)

/-- Read a scalar that is a block of lines, behind which a key may start. -/
def readBlock (fold : Bool) : Scan Unit := do
  allowKey true
  forgetMark
  push (← blockScalar fold)

/-- The characters that no plain scalar starts with, unless a word follows some of them. -/
def isMark (c : Char) : Bool :=
  isBlank c || "-?:,[]\x7b\x7d#&*!|>'\"%@\x60".toList.contains c

/-- Whether a plain scalar may start here. A hyphen may start one when a word follows, and
outside flow collections a question mark or a colon. -/
def startsPlain (c : Char) : Scan Bool := do
  if !isMark c then return true
  let next ← peek 1
  return !endsWord next && (c == '-' || ((← get).flow == 0 && (c == '?' || c == ':')))

/-- Whether a mark that has to end a word stands here. Some marks need not inside flow
collections. -/
def isEntryMark (freeInFlow : Bool) : Scan Bool := do
  if freeInFlow && decide (0 < (← get).flow) then return true
  return endsWord (← peek 1)

/-- Read the next token by its first character, among those that start with a mark; tell whether
there was one. -/
def readMarked (c : Char) : Scan Bool := do
  let inFlow := decide (0 < (← get).flow)
  match c with
  | '[' => openFlow .flowSequenceStart
  | '\x7b' => openFlow .flowMappingStart
  | ']' => closeFlow .flowSequenceEnd
  | '\x7d' => closeFlow .flowMappingEnd
  | ',' => readComma
  | '*' => readWord do return .alias (← anchorName)
  | '&' => readWord do return .anchor (← anchorName)
  | '!' => readWord tag
  | '\x27' | '"' => readWord (quotedScalar c)
  | '-' =>
    if ← isEntryMark false then readEntry .blockSequenceStart .blockEntry true else return false
  | '?' =>
    if ← isEntryMark true then readEntry .blockMappingStart .key (!inFlow) else return false
  | ':' => if ← isEntryMark true then readColon else return false
  | '|' => if inFlow then return false else readBlock false
  | '>' => if inFlow then return false else readBlock true
  | _ => return false
  return true

/-- Read the next token, which starts with the character `c`. -/
def readToken (c : Char) : Scan Unit := do
  let atStart := (← get).column == 0
  if atStart && c == '%' then readLimit directive
  else if ← (if atStart && c == '-' then atMark "---" else pure false) then
    readLimit (documentMark .documentStart)
  else if ← (if atStart && c == '.' then atMark "..." else pure false) then
    readLimit (documentMark .documentEnd)
  else if !(← readMarked c) then
    if ← startsPlain c then readWord plainScalar else malformed

/-- Read on up to the next token, or to the end; tell whether the end was met. -/
def readNext : Scan Bool := do
  skipBetween (← enough)
  forgetStale
  closeBlocks (← get).column
  match ← peek with
  | none =>
    closeBlocks (-1)
    forgetMark
    push .streamEnd
    return true
  | some c =>
    readToken c
    forgetStale
    return false

end Scan

/-- How many tokens are known: those before the first place where a key may have started. -/
def Cursor.known (s : Cursor) : Nat := s.marks.foldl (fun n m => min n m.2.token) s.count

/-- The tokens up to the end, or up to a fault. -/
def Cursor.tokensFrom : Nat → Cursor → List Token
  | 0, s => s.tokens.reverse ++ [.fault .malformed]
  | fuel + 1, s =>
    match Scan.readNext.run s with
    | .error f => s.tokens.reverse.take s.known ++ [.fault f]
    | .ok (true, s) => s.tokens.reverse
    | .ok (false, s) => tokensFrom fuel s

/-- The tokens of a text that ends in a fault of the file, if there is one. A byte order mark at
the front is passed over. -/
def Token.ofText (text : Text) (ending : Option Fault) : List Token :=
  let s : Cursor := { rest := text, ending }
  Cursor.tokensFrom (text.length + 2) (if text.head? = some '\ufeff' then Scan.stepped s else s)

end Yaml

end TreeLint
