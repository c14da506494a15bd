import TreeLint.Number.Decimal
import TreeLint.Text.Basic

/-!
# Edits

An edit replaces the characters of a range by a new text. A set of edits is applied in one pass:
`Edit.validate` puts them in order and refuses a set that reaches outside the text or in which
two edits meet, and `Edit.applyAll` replaces from the last edit to the first, so that no
replacement moves the offsets of one still to come.

An edit holds the integers it was proposed with; only validation checks them.
-/

namespace TreeLint

/-- Replace the characters from `start` up to `stop` by `newText`. -/
structure Edit where
  start : Int
  stop : Int
  newText : Text
  /-- The rule that proposed the edit. -/
  ruleId : String := ""
deriving DecidableEq, Repr

/-- Why a set of edits cannot be applied. -/
inductive EditError where
  /-- An edit reaches outside a text of this length, or ends before it starts. -/
  | outside (edit : Edit) (length : Nat)
  /-- Two edits touch the same characters, or insert at the same offset. -/
  | overlapping (first second : Edit)
deriving DecidableEq, Repr

/-- What an edit error is told as. -/
inductive EditErrorKind where
  /-- As an edit outside the text. -/
  | outside
  /-- As two edits in conflict. -/
  | overlapping
  /-- As a number that cannot be shown. -/
  | longNumber
deriving DecidableEq, Repr

namespace EditError

/-- What an edit error is told as. The offsets of an edit outside the text may be anything; if one
of them cannot be shown, it is told as that. -/
def kind : EditError → EditErrorKind
  | .outside e _ => if isShort e.start && isShort e.stop then .outside else .longNumber
  | .overlapping _ _ => .overlapping

/-- The wording of an edit error. -/
def message : EditError → String
  | .outside e n =>
    tellNumbers [e.start, e.stop] s!"edit [{e.start}, {e.stop}) is outside text of length {n}"
  | .overlapping a b =>
    s!"overlapping edit: [{a.start}, {a.stop}) conflicts with [{b.start}, {b.stop})"

end EditError

namespace Edit

/-- Edits are taken by their start, then by their end. -/
def le (a b : Edit) : Bool :=
  decide (a.start < b.start) || (a.start == b.start && decide (a.stop ≤ b.stop))

/-- Whether an edit lies in a text of a length. -/
def fits (n : Nat) (e : Edit) : Bool :=
  decide (0 ≤ e.start ∧ e.start ≤ e.stop ∧ e.stop ≤ n)

/-- Whether an edit meets the next one in order. Two insertions at one offset have no order
between them, so they meet as well. -/
def meets (a b : Edit) : Bool :=
  decide (b.start < a.stop) ||
    (a.start == a.stop && a.stop == b.start && b.start == b.stop)

/-- The first edit that meets the one after it. -/
def firstMeeting : List Edit → Option (Edit × Edit)
  | a :: b :: rest => if a.meets b then some (a, b) else firstMeeting (b :: rest)
  | _ => none

/-- The edits in order, if they can be applied to a text of a length. An edit outside the text is
reported before two that meet. -/
def validateIn (n : Nat) (edits : List Edit) : Except EditError (List Edit) :=
  let ordered := edits.mergeSort le
  match ordered.find? (fun e => !e.fits n) with
  | some e => .error (.outside e n)
  | none =>
    match firstMeeting ordered with
    | some (a, b) => .error (.overlapping a b)
    | none => .ok ordered

/-- The edits in order, if they can be applied to a text. -/
def validate (t : Text) (edits : List Edit) : Except EditError (List Edit) :=
  validateIn t.length edits

/-- A validated set is a permutation of the proposed one. -/
theorem perm_of_validate {t : Text} {edits ordered : List Edit}
    (h : validate t edits = .ok ordered) : ordered.Perm edits := by
  unfold validate validateIn at h
  simp only at h
  split at h
  · cases h
  · split at h
    · cases h
    · cases h
      exact List.mergeSort_perm edits le

/-- Replace the characters of one edit. -/
def replaceIn (e : Edit) (t : Text) : Text :=
  t.take e.start.toNat ++ e.newText ++ t.drop e.stop.toNat

/-- Replace the characters of several edits, the last one first. -/
def replaceAll (ordered : List Edit) (t : Text) : Text :=
  ordered.foldr replaceIn t

@[simp] theorem replaceAll_nil (t : Text) : replaceAll [] t = t := rfl

@[simp] theorem replaceAll_cons (e : Edit) (rest : List Edit) (t : Text) :
    replaceAll (e :: rest) t = e.replaceIn (replaceAll rest t) := rfl

/-- Apply a set of edits to a text: all of them, or none. -/
def applyAll (t : Text) (edits : List Edit) : Except EditError Text :=
  (validate t edits).map fun ordered => replaceAll ordered t

/-- Without edits the text stays as it is. -/
theorem applyAll_nil (t : Text) : applyAll t [] = .ok t := by
  simp [applyAll, validate, validateIn, firstMeeting, Except.map]

end Edit

end TreeLint
