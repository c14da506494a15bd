import TreeLint.Number.Decimal
import TreeLint.Text.Basic

/-!
# Ranges of offsets

A range names the characters from `start` up to, but not including, `stop`. Its type carries the
invariant `start ≤ stop`; `OffsetRange.of` builds one from two integers and refuses those that
are negative or in the wrong order.
-/

namespace TreeLint

/-- A pair of offsets that bounds no range. -/
structure RangeError where
  start : Int
  stop : Int
deriving Repr, DecidableEq

/-- The wording of a refused range. -/
def RangeError.message (e : RangeError) : String :=
  tellNumbers [e.start, e.stop] s!"invalid range [{e.start}, {e.stop})"

/-- The offsets from `start` up to, but not including, `stop`. -/
structure OffsetRange where
  start : Nat
  stop : Nat
  start_le_stop : start ≤ stop
deriving Repr, DecidableEq

namespace OffsetRange

/-- The range between two integers, if they bound one. -/
def of (start stop : Int) : Except RangeError OffsetRange :=
  if h : 0 ≤ start ∧ start ≤ stop then
    .ok ⟨start.toNat, stop.toNat, by omega⟩
  else .error ⟨start, stop⟩

theorem of_ok_iff {start stop : Int} {r : OffsetRange} :
    of start stop = .ok r ↔ (r.start : Int) = start ∧ (r.stop : Int) = stop := by
  unfold of
  split
  · rename_i h
    constructor
    · intro hr
      cases hr
      exact ⟨Int.toNat_of_nonneg h.1, Int.toNat_of_nonneg (by omega)⟩
    · intro ⟨h₁, h₂⟩
      cases r with
      | mk a b hab =>
        simp only at h₁ h₂
        subst h₁ h₂
        rfl
  · rename_i h
    constructor
    · intro hr
      cases hr
    · intro ⟨h₁, h₂⟩
      have := r.start_le_stop
      omega

/-- The number of offsets in a range. -/
def length (r : OffsetRange) : Nat := r.stop - r.start

/-- The largest number that counts the characters of a text: the largest signed word of 64
bits. -/
def maxCount : Nat := 9223372036854775807

/-- The length of a range, unless no text could have that many characters. -/
def count? (r : OffsetRange) : Option Nat :=
  if r.length ≤ maxCount then some r.length else none

/-- Whether a range covers an offset. An editor's cursor right behind the last character still
touches the range, so both ends count. -/
def covers (r : OffsetRange) (offset : Int) : Bool :=
  decide ((r.start : Int) ≤ offset ∧ offset ≤ (r.stop : Int))

/-- The characters of a text that lie in a range. -/
def slice (r : OffsetRange) (t : Text) : Text := t.slice r.start r.stop

end OffsetRange

end TreeLint
