import TreeLint.Text.Basic
import TreeLint.Text.CaseTable

/-!
# Lower case

Names are compared without regard to case, so a text is first brought to lower case. Most
characters have one lower-case form, whatever stands around them. Two do not: the dotted capital
I becomes two characters, and the capital sigma becomes `ς` at the end of a word and `σ`
elsewhere.
-/

namespace TreeLint

namespace Text

/-- Whether a code point lies in one of the ranges. -/
def inRanges (ranges : List (Nat × Nat)) (c : Char) : Bool :=
  ranges.any fun r => decide (r.1 ≤ c.toNat ∧ c.toNat ≤ r.2)

/-- The lower-case form of a character by itself. -/
def lowerChar (c : Char) : List Char :=
  if c = '\u0130' then ['i', '\u0307']
  else
    match lowerRuns.find? fun r =>
        decide (r.1 ≤ c.toNat ∧ c.toNat ≤ r.2.1 ∧ (c.toNat - r.1) % r.2.2.1 = 0) with
    | some r => [Char.ofNat (r.2.2.2 + (c.toNat - r.1))]
    | none => [c]

/-- Whether the next letter, characters that are skipped aside, has a case. -/
def caseFollows (t : Text) : Bool :=
  match t.dropWhile (inRanges skippedRanges) with
  | [] => false
  | c :: _ => inRanges casedRanges c

/-- Lower case of the rest of a text, given the characters before it, the nearest first. A capital
sigma ends a word when a letter stands before it and none after it. -/
def lowerAfter (before : Text) : Text → Text
  | [] => []
  | c :: rest =>
    let here :=
      if c = 'Σ' then [if caseFollows before && !caseFollows rest then 'ς' else 'σ']
      else lowerChar c
    here ++ lowerAfter (c :: before) rest

/-- A text in lower case. -/
def lower (t : Text) : Text := lowerAfter [] t

end Text

end TreeLint
