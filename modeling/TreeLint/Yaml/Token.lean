import TreeLint.Yaml.Fault

/-!
# Tokens of YAML

A document is read as a list of tokens. Indentation becomes tokens too: a block starts where a
line is indented further than the lines around it, and ends where one is indented less. The list
ends with the end of the document, or with the fault that keeps the rest from being read.
-/

namespace TreeLint

namespace Yaml

/-- A token. -/
inductive Token where
  /-- The directive with the version of the format, of which the first number counts. -/
  | version (major : Nat)
  /-- The directive that a handle stands for the start of tags. -/
  | handle (name start : Text)
  /-- Any other directive. -/
  | directive
  | documentStart
  | documentEnd
  | blockSequenceStart
  | blockMappingStart
  | blockEnd
  | flowSequenceStart
  | flowSequenceEnd
  | flowMappingStart
  | flowMappingEnd
  | blockEntry
  | flowEntry
  | key
  | value
  | alias (name : Text)
  | anchor (name : Text)
  /-- A tag: a handle, if there is one, and what follows it. -/
  | tag (handle : Option Text) (rest : Text)
  /-- A scalar; halves of characters in its text are written by `Text.ofCodes`. -/
  | scalar (plain : Bool) (text : Text)
  /-- The end of the document. -/
  | streamEnd
  /-- Why there are no more tokens. -/
  | fault (f : Fault)
deriving DecidableEq, Repr

/-- Whether a character ends a line. -/
def isBreak (c : Char) : Bool := c == '\n' || c == '\x85' || c == '\u2028' || c == '\u2029'

/-- Whether a character is a space or ends a line. -/
def isSpaceOrBreak (c : Char) : Bool := c == ' ' || isBreak c

/-- Whether a character is a blank or ends a line. -/
def isBlank (c : Char) : Bool := c == '\t' || isSpaceOrBreak c

/-- Whether a word ends before what comes next. -/
def endsWord (next : Option Char) : Bool := next.all isBlank

/-- Whether a line ends before what comes next. -/
def endsLine (next : Option Char) : Bool := next.all isBreak

/-- Whether a character may stand in a name. -/
def isNameChar (c : Char) : Bool := c.isAlphanum || c == '-' || c == '_'

end Yaml

end TreeLint
