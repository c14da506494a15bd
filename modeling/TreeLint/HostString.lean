import TreeLint.Engine
import TreeLint.Report
import TreeLint.Text.Codes
import TreeLint.Text.Quoted

/-!
# Strings of a host in the engine

A host may hand over any string, also one that is no text. Such a string cannot be encoded, so the
parser is not called on it, which counts as a failure of the parser, and the analysis is empty.
Edits can be applied to it like to any other string. Its positions cannot be told, and so there is
no report on it, not even of an empty analysis.
-/

namespace TreeLint

/-! ### Encoding -/

/-- The codes of no character that come first in a string, all that stand side by side. -/
structure EncodeError where
  start : Nat
  codes : List Nat
deriving DecidableEq, Repr

/-- The wording of a string that cannot be encoded. -/
def EncodeError.message (e : EncodeError) : String :=
  match e.codes with
  | [n] => "'utf-8' codec can't encode character '\\u" ++ String.ofList (hexDigits 4 n) ++
      "' in position " ++ toString e.start ++ ": surrogates not allowed"
  | codes => "'utf-8' codec can't encode characters in position " ++ toString e.start ++ "-" ++
      toString (e.start + codes.length - 1) ++ ": surrogates not allowed"

/-- The text that a string is, if it can be encoded. -/
def Text.encode (codes : List Nat) : Except EncodeError Text :=
  match ofCodes? codes with
  | some t => .ok t
  | none =>
    let front := codes.takeWhile fun n => decide n.isValidChar
    let halves := (codes.drop front.length).takeWhile fun n => !decide n.isValidChar
    .error ⟨front.length, halves⟩

/-- The tables of a string, if it can be encoded. Its characters are encoded one by one. -/
def PositionIndex.ofCodes (codes : List Nat) : Except EncodeError PositionIndex := do
  let chars ← codes.mapM fun n => Text.encode [n]
  return ofText chars.flatten

/-! ### Analyses -/

namespace Engine

/-- What stands in for the answer of a parser that cannot be called: a failure, if there is a parser
to call. -/
def withoutBytes (e : Engine) (kind : Option String) (answer : ParserAnswer) (reason : String) :
    ParserAnswer :=
  match FileKind.ofName kind with
  | .error _ => answer
  | .ok k =>
    match e.frontend.prepare k answer with
    | .error _ => answer
    | .ok _ => .failed reason

/-- Analyze a string for which the parser would give an answer. -/
def analyzeCodes (e : Engine) (c : Config) (codes : List Nat) (kind : Option String)
    (answer : ParserAnswer) : Attempt Failure Analysis × Engine :=
  match Text.encode codes with
  | .ok t => e.analyze c t kind answer
  | .error err => e.analyze c [] kind (e.withoutBytes kind answer err.message)

end Engine

/-! ### Edits -/

namespace Edit

/-- Replace the codes of one edit. -/
def replaceCodesIn (e : Edit) (codes : List Nat) : List Nat :=
  codes.take e.start.toNat ++ e.newText.toCodes ++ codes.drop e.stop.toNat

/-- Apply a set of edits to a string: all of them, or none. -/
def applyCodes (codes : List Nat) (edits : List Edit) : Except EditError (List Nat) :=
  (validateIn codes.length edits).map fun ordered => ordered.foldr replaceCodesIn codes

end Edit

/-! ### Reports -/

/-- Why a report cannot be given. -/
inductive ReportError where
  /-- The string that was analyzed cannot be encoded. -/
  | encoding (e : EncodeError)
  /-- An edit is no range. -/
  | range (e : RangeError)
deriving DecidableEq, Repr

/-- The report of an analysis of a string. The tables of its positions come first. -/
def Report.ofCodes (codes : List Nat) (a : Analysis) : Except ReportError Value := do
  let p ← (PositionIndex.ofCodes codes).mapError .encoding
  (Report.ofAnalysis p a).mapError .range

end TreeLint
