import TreeLint.Text.Utf8
import TreeLint.Yaml.Fault

/-!
# Files in pieces

A document is not read as a whole. Bytes are taken from the file in pieces, decoded, and handed on
in loads of a few thousand characters, each when the reader has used up the one before. So a fault
of the file, bytes that are no text or a character that a document must not hold, comes up only
when the reader gets to the load with the fault: a fault of the document before it comes first.

`Stream.load` gives the text up to the first faulty load, and that fault. In the text every line
ends in a line feed.
-/

namespace TreeLint

namespace Yaml

/-- Whether a document may hold a character. -/
def isAllowed (c : Char) : Bool :=
  c == '\t' || c == '\n' || decide (' ' ≤ c ∧ c ≤ '~') || c == '\x85' ||
    decide ('\xa0' ≤ c) && c != '\ufffe' && c != '\uffff'

/-- A text with every line ending in a line feed. -/
def withLineFeeds : Text → Text
  | [] => []
  | '\r' :: '\n' :: rest => '\n' :: withLineFeeds rest
  | '\r' :: rest => '\n' :: withLineFeeds rest
  | c :: rest => c :: withLineFeeds rest

/-- How many bytes a piece has, if it is not asked to be larger. -/
def pieceSize : Nat := 8192

/-- How many characters a load has. -/
def loadSize : Nat := 4096

/-- A file that is being read. -/
structure Stream where
  /-- The bytes still to take. -/
  bytes : List UInt8
  /-- Where the decoding stands. -/
  state : Utf8 := {}
  /-- Whether a carriage return waits for what follows it. -/
  held : Bool := false
  /-- The characters that are decoded and not yet handed on. -/
  ready : Text := []
  /-- How many bytes the last piece had. -/
  bytesRead : Nat := 0
  /-- How many characters the last piece gave. -/
  charsRead : Nat := 0
deriving Repr

namespace Stream

/-- The size of the next piece, when `n` characters are wanted. It is judged by the last one. -/
def nextSize (s : Stream) (n : Nat) : Nat :=
  let expected := if s.charsRead = 0 then n else max n (n * s.bytesRead / s.charsRead)
  max pieceSize expected

/-- Decode the next piece. At the end of the file no character may be incomplete; a carriage
return at the end of a piece waits, as a line feed may follow. The result also tells whether there
was anything left. -/
def piece (s : Stream) (n : Nat) : Except Fault (Stream × Bool) :=
  let taken := s.bytes.take (s.nextSize n)
  let last := taken.isEmpty
  match s.state.run (if s.held then ['\r'] else []) taken with
  | none => .error .notUtf8
  | some (read, state) =>
    if last && !state.complete then .error .notUtf8
    else
      let held := !last && read.head? == some '\r'
      let ready := withLineFeeds (if held then read.tail else read).reverse
      let bytes := s.bytes.drop (s.nextSize n)
      .ok ({ bytes, state, held, ready, bytesRead := taken.length, charsRead := ready.length },
        !(last && ready.isEmpty))

/-- Take up to `n` characters, decoding pieces as long as there are too few; they are collected in
front of `got`, in reverse. -/
def take : Nat → Nat → Text → Stream → Except Fault (Text × Stream)
  | 0, _, got, s => .ok (got, s)
  | fuel + 1, n, got, s =>
    let now := s.ready.take n
    let got := now.reverse ++ got
    let n := n - now.length
    let s := { s with ready := s.ready.drop now.length }
    if n = 0 then .ok (got, s)
    else
      match s.piece n with
      | .error f => .error f
      | .ok (s, true) => take fuel n got s
      | .ok (s, false) => .ok (got, s)

/-- Take one load, behind the characters in `got`. -/
def takeLoad (got : Text) (s : Stream) : Except Fault (Text × Stream) :=
  s.take (s.bytes.length + 3) loadSize got

/-- Take the first load, which goes on until it has two characters. -/
def takeFirst : Nat → Text → Stream → Except Fault (Text × Stream × Bool)
  | 0, got, s => .ok (got, s, true)
  | fuel + 1, got, s =>
    match s.takeLoad got with
    | .error f => .error f
    | .ok (more, s) =>
      if more.length = got.length then .ok (more, s, true)
      else if 2 ≤ more.length then .ok (more, s, false)
      else takeFirst fuel more s

/-- Take all further loads. The characters are collected in front of `text`, in reverse, up to the
first load with a fault. -/
def loads : Nat → Text → Stream → Text × Option Fault
  | 0, text, _ => (text, none)
  | fuel + 1, text, s =>
    match s.takeLoad [] with
    | .error f => (text, some f)
    | .ok (more, s) =>
      if more.isEmpty then (text, none)
      else if more.all isAllowed then loads fuel (more ++ text) s
      else (text, some .malformed)

/-- The text of a file up to the first load with a fault, and the fault. The first two loads are
taken at once. -/
def load (bytes : List UInt8) : Text × Option Fault :=
  let first := do
    let (text, s, ended) ← takeFirst 3 [] { bytes }
    let (text, s) ← if ended then .ok (text, s) else s.takeLoad text
    if text.all isAllowed then .ok (text, s) else .error .malformed
  match first with
  | .error f => ([], some f)
  | .ok (text, s) =>
    let (text, ending) := loads (bytes.length + 1) text s
    (text.reverse, ending)

end Stream

end Yaml

end TreeLint
