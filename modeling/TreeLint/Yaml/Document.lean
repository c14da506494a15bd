import TreeLint.Yaml.Node
import TreeLint.Yaml.TokenList

/-!
# Documents

`Node.ofTokens` groups the tokens of a document into its node. A node may be left out where the
tokens around it show its place, as behind a colon at the end of a line; the empty plain scalar
stands for it. An anchor names a node, and an alias puts a node named before in its place. A name
cannot be given twice.

The tokens may end in a fault. It comes up when the token in its place is asked for, so a fault in
the grouping of the tokens before comes first.

Reading goes from left to right and has no choices, so one measure of the tokens bounds it: no
step is taken more than four times for a token.
-/

namespace TreeLint

namespace Yaml

namespace Node

/-- A node that is named by an anchor. -/
inductive Named where
  /-- A collection that is still being read. -/
  | opened (isMapping : Bool)
  | complete (n : Node)
deriving Repr

/-- The node that stands where a name is used. -/
def Named.node (name : Text) : Named → Node
  | .opened isMapping => .loop name isMapping
  | .complete n => n

/-- The handles that have a meaning without a directive. -/
def defaultHandles : List (Text × Text) := [(['!'], ['!']), (['!', '!'], vocabulary)]

/-- The state of reading. -/
structure Reader where
  /-- The tokens still to read. -/
  rest : List Token
  /-- The nodes with an anchor, the last first. -/
  named : List (Text × Named) := []
  /-- What the handles of tags stand for. -/
  handles : List (Text × Text) := defaultHandles
deriving Repr

/-- A step of reading. -/
abbrev Parse := StateT Reader (Except Fault)

namespace Parse

/-- End the reading with the fault that the tokens do not fit together. -/
def malformed {α : Type} : Parse α := throw .malformed

/-- The next token. -/
def peek : Parse Token := do
  match (← get).rest with
  | [] => return .streamEnd
  | .fault f :: _ => throw f
  | t :: _ => return t

/-- Go over the next token. -/
def advance : Parse Unit := modify fun r => { r with rest := r.rest.tail }

/-- Whether one of some tokens comes next. -/
def sees (ts : List Token) : Parse Bool := return ts.contains (← peek)

/-- Go over a token if it comes next, and tell whether it did. -/
def skips (t : Token) : Parse Bool := do
  if ← sees [t] then
    advance
    return true
  else return false

/-- Go over a token that has to come next. -/
def expect (t : Token) : Parse Unit := do
  if !(← skips t) then malformed

/-- Check that an anchor gives a new name. -/
def checkNew (anchor : Option Text) : Parse Unit := do
  let r ← get
  if anchor.any fun name => (r.named.lookup name).isSome then malformed

/-- Tell what an anchor names. -/
def record (anchor : Option Text) (n : Named) : Parse Unit :=
  match anchor with
  | none => return
  | some name => modify fun r => { r with named := (name, n) :: r.named }

/-- Read a collection with an anchor, which is known by its name while it is read. -/
def collection (anchor : Option Text) (isMapping : Bool) (read : Parse Node) : Parse Node := do
  checkNew anchor
  record anchor (.opened isMapping)
  let n ← read
  record anchor (.complete n)
  return n

/-- A scalar with an anchor. -/
def leaf (anchor : Option Text) (n : Node) : Parse Node := do
  checkNew anchor
  record anchor (.complete n)
  return n

end Parse

open Parse

/-- The anchor and the tag of a node. -/
structure Properties where
  anchor : Option Text := none
  tag : Option Text := none
deriving DecidableEq, Repr

namespace Properties

/-- Whether a node has an anchor or a tag. -/
def given (p : Properties) : Bool := p.anchor.isSome || p.tag.isSome

/-- Whether the tag leaves the kind open. -/
def isOpen (p : Properties) : Bool := p.tag.all (· == ['!'])

/-- The kind of a collection. -/
def kindOr (p : Properties) (kind : Kind) : Kind :=
  if p.isOpen then kind else (p.tag.map Kind.ofTag).getD kind

/-- The kind of a scalar. A text in quotes is a string, unless the tag `!` leaves that open. -/
def kindOfText (p : Properties) (plain : Bool) (t : Text) : Kind :=
  match p.tag with
  | none => if plain then .ofPlain t else .str
  | some tag => if tag = ['!'] then .ofPlain t else .ofTag tag

end Properties

/-- Go over an anchor, if it comes next. -/
def anchor? : Parse (Option Text) := do
  match ← peek with
  | .anchor name =>
    advance
    return some name
  | _ => return none

/-- Go over a tag, if it comes next. -/
def tag? : Parse (Option (Option Text × Text)) := do
  match ← peek with
  | .tag handle rest =>
    advance
    return some (handle, rest)
  | _ => return none

/-- The full form of a tag. Its handle needs a meaning. -/
def fullTag : Option (Option Text × Text) → Parse (Option Text)
  | none => return none
  | some (none, rest) => return some rest
  | some (some handle, rest) => do
    match (← get).handles.lookup handle with
    | some start => return some (start ++ rest)
    | none => malformed

/-- Read an anchor and a tag, in either order. -/
def properties : Parse Properties := do
  let first ← anchor?
  let tag ← tag?
  let anchor ← if first.isNone && tag.isSome then anchor? else pure first
  return { anchor, tag := ← fullTag tag }

/-- The node that stands where none is written. -/
def empty : Node := ofScalar .null []

/-- Where a node stands. -/
inductive Place where
  /-- Inside brackets, where no block can start. -/
  | flow
  /-- Where a block can start. -/
  | block
  /-- Behind a key, where a sequence need not be indented. -/
  | entry
deriving DecidableEq, Repr

mutual
/-- Read a node. -/
def read (place : Place) : Nat → Parse Node
  | 0 => malformed
  | fuel + 1 => do
    match ← peek with
    | .alias name =>
      advance
      match (← get).named.lookup name with
      | some n => return n.node name
      | none => malformed
    | _ => content place (← properties) fuel
/-- Read what follows the anchor and the tag of a node. -/
def content (place : Place) (p : Properties) : Nat → Parse Node
  | 0 => malformed
  | fuel + 1 => do
    let sequence (read : Parse (List Node)) : Parse Node :=
      collection p.anchor false do return ofItems (p.kindOr .seq) (← read)
    let mapping (read : Parse (List (Node × Node))) : Parse Node :=
      collection p.anchor true do return ofPairs (p.kindOr .map) (← read)
    let t ← peek
    match t with
    | .scalar plain text =>
      advance
      leaf p.anchor (ofScalar (p.kindOfText plain text) text)
    | .flowSequenceStart => sequence do
      advance
      flowItems true fuel
    | .flowMappingStart => mapping do
      advance
      flowPairs true fuel
    | _ =>
      if t = .blockEntry ∧ place = .entry then sequence (openItems fuel)
      else if t = .blockSequenceStart ∧ place ≠ .flow then sequence do
        advance
        blockItems fuel
      else if t = .blockMappingStart ∧ place ≠ .flow then mapping do
        advance
        blockPairs fuel
      else if p.given then leaf p.anchor (ofScalar (p.kindOfText true []) [])
      else malformed
/-- Read a node, or none where one of some tokens shows that it is left out. -/
def readUnless (stops : List Token) (place : Place) : Nat → Parse Node
  | 0 => malformed
  | fuel + 1 => do
    if ← sees stops then return empty else read place fuel
/-- Read the items of an indented sequence. -/
def blockItems : Nat → Parse (List Node)
  | 0 => malformed
  | fuel + 1 => do
    if ← skips .blockEntry then
      let x ← readUnless [.blockEntry, .blockEnd] .block fuel
      let xs ← blockItems fuel
      return x :: xs
    else
      expect .blockEnd
      return []
/-- Read the items of a sequence that is not indented, up to the next key. -/
def openItems : Nat → Parse (List Node)
  | 0 => malformed
  | fuel + 1 => do
    if ← skips .blockEntry then
      let x ← readUnless [.blockEntry, .key, .value, .blockEnd] .block fuel
      let xs ← openItems fuel
      return x :: xs
    else return []
/-- Read the value of a pair, if a value is given. -/
def valueUnless (stops : List Token) (place : Place) : Nat → Parse Node
  | 0 => malformed
  | fuel + 1 => do
    if ← skips .value then readUnless stops place fuel else return empty
/-- Read the pairs of an indented mapping. -/
def blockPairs : Nat → Parse (List (Node × Node))
  | 0 => malformed
  | fuel + 1 => do
    if ← skips .key then
      let k ← readUnless [.key, .value, .blockEnd] .entry fuel
      let v ← valueUnless [.key, .value, .blockEnd] .entry fuel
      let ps ← blockPairs fuel
      return (k, v) :: ps
    else
      expect .blockEnd
      return []
/-- Read the key and the value of a pair inside brackets; `close` is the bracket that ends the
collection around it. -/
def flowPair (close : Token) : Nat → Parse (Node × Node)
  | 0 => malformed
  | fuel + 1 => do
    let k ← readUnless [.value, .flowEntry, close] .flow fuel
    let v ← valueUnless [.flowEntry, close] .flow fuel
    return (k, v)
/-- Read the items of a sequence in brackets. A pair among them is a mapping of its own. -/
def flowItems (first : Bool) : Nat → Parse (List Node)
  | 0 => malformed
  | fuel + 1 => do
    if ← skips .flowSequenceEnd then return []
    if !first then expect .flowEntry
    if ← skips .key then
      let x ← collection none true do
        return ofPairs .map [← flowPair .flowSequenceEnd fuel]
      let xs ← flowItems false fuel
      return x :: xs
    else if ← skips .flowSequenceEnd then return []
    else
      let x ← read .flow fuel
      let xs ← flowItems false fuel
      return x :: xs
/-- Read the pairs of a mapping in braces. A node by itself is a key. -/
def flowPairs (first : Bool) : Nat → Parse (List (Node × Node))
  | 0 => malformed
  | fuel + 1 => do
    if ← skips .flowMappingEnd then return []
    if !first then expect .flowEntry
    if ← skips .key then
      let p ← flowPair .flowMappingEnd fuel
      let ps ← flowPairs false fuel
      return p :: ps
    else if ← skips .flowMappingEnd then return []
    else
      let k ← read .flow fuel
      let ps ← flowPairs false fuel
      return (k, empty) :: ps
end

/-! ### Before and behind the node -/

/-- Read the directives before a document. The version is given once at most, and it is one; a
handle is given a meaning once. -/
def directives (versioned : Bool) (handles : List (Text × Text)) :
    Nat → Parse (List (Text × Text))
  | 0 => malformed
  | fuel + 1 => do
    match ← peek with
    | .version major =>
      if versioned || major != 1 then malformed
      advance
      directives true handles fuel
    | .handle name start =>
      if (handles.lookup name).isSome then malformed
      advance
      directives versioned ((name, start) :: handles) fuel
    | .directive =>
      advance
      directives versioned handles fuel
    | _ => return handles

/-- Whether a directive comes next. -/
def seesDirective : Parse Bool := do
  match ← peek with
  | .version _ | .handle _ _ | .directive => return true
  | _ => return false

/-- Go to the content of a document, behind its mark if it has one; tell whether there is
content. -/
def toContent (fuel : Nat) : Parse Bool := do
  if !(← seesDirective) && !(← sees [.documentStart]) then return true
  let handles ← directives false [] fuel
  expect .documentStart
  modify fun r => { r with handles := handles ++ defaultHandles }
  return !(← seesDirective) && !(← sees [.documentStart, .documentEnd, .streamEnd])

/-- Go over the marks at the end of a document. -/
def skipEnds : Nat → Parse Unit
  | 0 => malformed
  | fuel + 1 => do
    if ← skips .documentEnd then skipEnds fuel

/-- The name that tokens give to the node that they start. -/
def nameAtFront : List Token → Option Text
  | .anchor name :: _ | .tag _ _ :: .anchor name :: _ => some name
  | _ => none

/-- The node of a document and its name, or none if there is no document. There must not be a
second one. -/
def document (fuel : Nat) : Parse (Option (Node × Option Text)) := do
  if ← sees [.streamEnd] then return none
  let hasContent ← toContent fuel
  let name := nameAtFront (← get).rest
  let n ← if hasContent then read .block fuel else pure empty
  skipEnds fuel
  if !(← sees [.streamEnd]) then
    let _ ← directives false [] fuel
    malformed
  return some (n, name)

/-- The node of a document and its name. -/
def ofTokens (ts : List Token) : Except Fault (Option (Node × Option Text)) :=
  ((document (4 * ts.length + 8)).run { rest := ts }).map Prod.fst

end Node

end Yaml

end TreeLint
