import TreeLint.Text.Utf8
import TreeLint.Yaml.ScalarText

/-!
# Tags and directives

A tag tells the kind of a node. It is written in full between angle brackets, or as a handle and
the rest of it; `!` and `!!` are handles, and a directive before a document can give a meaning to
these and to others such as `!e!`. Characters that a tag cannot hold are written as bytes of their
UTF-8 form, each behind a percent sign.

Apart from handles, a directive gives the version of the format. Others are passed over.
-/

namespace TreeLint

namespace Yaml

namespace Scan

/-- Read the name of an anchor. -/
def anchorName : Scan Text := do
  advance
  let name ← takeWhile isNameChar
  let ends (c : Char) : Bool :=
    isBlank c || ['?', ':', ',', ']', '\x7d', '%', '@', '\x60'].contains c
  if name.isEmpty || !(← peek).all ends then malformed
  return name

/-- Whether a character stands for itself in a tag. -/
def isTagChar (c : Char) : Bool :=
  c.isAlphanum || "-;/?:@&=+$,_.!~*'()[]".toList.contains c

/-- Read bytes behind percent signs; those before are held in reverse. -/
def tagBytes : Nat → List UInt8 → Scan (List UInt8)
  | 0, _ => malformed
  | fuel + 1, bytes => do
    if (← peek) == some '%' then
      advance
      let code ← hexCode 0 0 2
      skip 2
      tagBytes fuel (code.toUInt8 :: bytes)
    else return bytes.reverse

/-- Read the characters of a tag; those before are held in reverse. -/
def tagChars : Nat → Text → Scan Text
  | 0, _ => malformed
  | fuel + 1, text => do
    let run ← takeWhile isTagChar
    let text := run.reverse ++ text
    if (← peek) == some '%' then
      match Text.ofUtf8? (← tagBytes (← enough) []) with
      | some more => tagChars fuel (more.reverse ++ text)
      | none => malformed
    else return text.reverse

/-- Read the text of a tag, which is not empty. -/
def tagText : Scan Text := do
  let text ← tagChars (← enough) []
  if text.isEmpty then malformed
  return text

/-- Read a handle: an exclamation mark before a space, or a name between two of them. -/
def tagHandle : Scan Text := do
  if (← peek) != some '!' then malformed
  if (← peek 1) == some ' ' then
    advance
    return ['!']
  let s ← get
  let n := ((s.rest.drop 1).takeWhile isNameChar).length + 1
  if (← peek n) != some '!' then malformed
  skip (n + 1)
  return s.rest.take (n + 1)

/-- Read a tag between angle brackets. -/
def fullTag : Scan Token := do
  skip 2
  let text ← tagText
  if (← peek) != some '>' then malformed
  advance
  return .tag none text

/-- Read a tag with a handle. If no other handle is there, it is the first exclamation mark. -/
def shortTag : Scan Token := do
  let word := ((← get).rest.drop 1).takeWhile fun c => !isSpaceOrBreak c
  if word.elem '!' then
    let handle ← tagHandle
    return .tag (some handle) (← tagText)
  else
    let _ ← peek (word.length + 1)
    advance
    return .tag (some ['!']) (← tagText)

/-- Read a tag. A tab does not end one. -/
def tag : Scan Token := do
  let next ← peek 1
  let t ←
    if next == some '<' then fullTag
    else if endsWord next then do
      advance
      pure (.tag none ['!'])
    else shortTag
  if !(← peek).all isSpaceOrBreak then malformed
  return t

/-- Read a number of a version. -/
def versionNumber : Scan Nat := do
  let ds ← takeWhile Char.isDigit
  if ds.isEmpty then malformed
  if 4300 < ds.length then throw (.tooManyDigits ds.length)
  return ds.foldl (fun n c => 10 * n + (c.toNat - '0'.toNat)) 0

/-- Read the version of the format. -/
def version : Scan Token := do
  spaces
  let major ← versionNumber
  if (← peek) != some '.' then malformed
  advance
  let _ ← versionNumber
  if !(← peek).all isSpaceOrBreak then malformed
  return .version major

/-- Read a handle and what it stands for. -/
def handleMeaning : Scan Token := do
  spaces
  let name ← tagHandle
  if (← peek) != some ' ' then malformed
  spaces
  let start ← tagText
  if !(← peek).all isSpaceOrBreak then malformed
  return .handle name start

/-- Read a directive with the rest of its line. -/
def directive : Scan Token := do
  advance
  let name ← takeWhile isNameChar
  if name.isEmpty || !(← peek).all isSpaceOrBreak then malformed
  let t ←
    if name = "YAML".toList then version
    else if name = "TAG".toList then handleMeaning
    else do
      restOfLine
      pure .directive
  spaces
  comment
  if !endsLine (← peek) then malformed
  let _ ← lineBreak
  return t

end Scan

end Yaml

end TreeLint
