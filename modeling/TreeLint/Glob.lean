import TreeLint.Text.Codes

/-!
# Glob patterns

Patterns that select rules by their ids. A star stands for any text, a question mark for any one
character, and a set in square brackets for one of its characters; every other character stands
for itself. A pattern has to match the whole text, and case matters.

A set may hold ranges, and an exclamation mark at its front negates it. A closing bracket at the
front of a set belongs to it, and an opening bracket without a closing one stands for itself. A
range with its ends in the wrong order is dropped from the set. A set with nothing left matches
no character, its negation any character.

Patterns and texts are taken by their codes, as a pattern may hold codes of no character.
-/

namespace TreeLint

/-- One piece of a pattern. -/
inductive GlobPiece where
  /-- Any text. -/
  | star
  /-- Any one character. -/
  | any
  /-- One character. -/
  | char (c : Nat)
  /-- A character of a set, or with `negated` one outside it. The set is a list of chunks: the
  characters of the chunks, and all between the end of a chunk and the start of the next. -/
  | set (negated : Bool) (chunks : List (List Nat))
deriving DecidableEq, Repr

namespace GlobPiece

/-- Whether a character lies between two chunks. -/
def between (c : Nat) (left right : List Nat) : Bool :=
  match left.getLast?, right.head? with
  | some a, some b => decide (a ≤ c ∧ c ≤ b)
  | _, _ => false

/-- Whether a set of chunks holds a character. -/
def holds (c : Nat) : List (List Nat) → Bool
  | [] => false
  | [chunk] => chunk.elem c
  | left :: right :: rest => left.elem c || between c left right || holds c (right :: rest)

/-- Whether a piece other than a star accepts a character. -/
def accepts (c : Nat) : GlobPiece → Bool
  | .star => false
  | .any => true
  | .char d => c == d
  | .set negated chunks => negated != holds c chunks

end GlobPiece

namespace Glob

/-- Cut a set at the hyphens that make a range. A hyphen makes one when a character stands before
it; the character behind it then starts a new chunk and cannot start a range as well. -/
def cut (chunk : List Nat) (fresh : Nat) : List Nat → List (List Nat)
  | [] => [chunk.reverse]
  | c :: rest =>
    if c = '-'.toNat ∧ fresh = 0 then chunk.reverse :: cut [] 2 rest
    else cut (c :: chunk) (fresh - 1) rest

/-- The chunks of a set. A hyphen at the very end is a character of the set. -/
def chunksOf (body : List Nat) : List (List Nat) :=
  let pieces := cut [] (if body.head? = some '!'.toNat then 2 else 1) body
  match pieces.reverse with
  | [] :: last :: before => ((last ++ ['-'.toNat]) :: before).reverse
  | _ => pieces

/-- Drop the ranges with their ends in the wrong order, from the last to the first: the two
chunks are joined without the ends. -/
def dropReversed : List (List Nat) → List (List Nat)
  | [] => []
  | left :: rest =>
    match dropReversed rest with
    | [] => [left]
    | right :: more =>
      match left.getLast?, right.head? with
      | some a, some b =>
        if b < a then (left.dropLast ++ right.drop 1) :: more else left :: right :: more
      | _, _ => left :: right :: more

/-- The piece of a set. -/
def setPiece (body : List Nat) : GlobPiece :=
  match dropReversed (chunksOf body) with
  | (c :: chunk) :: rest =>
    if c = '!'.toNat then .set true (chunk :: rest) else .set false ((c :: chunk) :: rest)
  | chunks => .set false chunks

/-- The body of a set and what follows its closing bracket, if it has one. -/
def setBody? (t : List Nat) : Option (List Nat × List Nat) :=
  let front := if t.head? = some '!'.toNat then 1 else 0
  let front := if (t.drop front).head? = some ']'.toNat then front + 1 else front
  let rest := t.drop front
  let inner := rest.takeWhile (· != ']'.toNat)
  match rest.dropWhile (· != ']'.toNat) with
  | [] => none
  | _ :: after => some (t.take front ++ inner, after)

theorem length_setBody?_lt {t body after : List Nat} (h : setBody? t = some (body, after)) :
    after.length < t.length := by
  have key : ∀ k, ∀ after', (t.drop k).dropWhile (· != ']'.toNat) = ']'.toNat :: after' ∨
      (∃ d, (t.drop k).dropWhile (· != ']'.toNat) = d :: after') → after'.length < t.length := by
    intro k after' hk
    have hlen : ((t.drop k).dropWhile (· != ']'.toNat)).length ≤ t.length := by
      have h₁ := (List.dropWhile_suffix (· != ']'.toNat) (l := t.drop k)).length_le
      have h₂ := List.length_drop (i := k) (l := t)
      omega
    rcases hk with hk | ⟨d, hk⟩ <;> · rw [hk] at hlen; simp only [List.length_cons] at hlen; omega
  unfold setBody? at h
  simp only at h
  split at h
  · cases h
  · rename_i d after' hd
    cases h
    exact key _ _ (Or.inr ⟨d, hd⟩)

/-- The pieces of a pattern. -/
def pieces (t : List Nat) : List GlobPiece :=
  match t with
  | [] => []
  | c :: rest =>
    if c = '*'.toNat then .star :: pieces rest
    else if c = '?'.toNat then .any :: pieces rest
    else if c = '['.toNat then
      match h : setBody? rest with
      | none => .char c :: pieces rest
      | some (body, after) =>
        have : after.length < rest.length := length_setBody?_lt h
        setPiece body :: pieces after
    else .char c :: pieces rest
termination_by t.length

/-- Try a match at every rest of a text. -/
def anyRest (f : List Nat → Bool) : List Nat → Bool
  | [] => f []
  | c :: rest => f (c :: rest) || anyRest f rest

/-- Whether pieces match a whole text. -/
def accepts : List GlobPiece → List Nat → Bool
  | [], t => t.isEmpty
  | .star :: ps, t => anyRest (accepts ps) t
  | _ :: _, [] => false
  | p :: ps, c :: rest => p.accepts c && accepts ps rest

/-- A text has itself among its rests. -/
theorem anyRest_of_self {f : List Nat → Bool} {t : List Nat} (h : f t = true) :
    anyRest f t = true := by
  cases t with
  | nil => exact h
  | cons c rest => simp [anyRest, h]

/-- The empty text is a rest of every text. -/
theorem anyRest_of_nil {f : List Nat → Bool} (h : f [] = true) (t : List Nat) :
    anyRest f t = true := by
  induction t with
  | nil => exact h
  | cons c rest ih => simp [anyRest, ih]

/-- A star alone matches every text. -/
theorem accepts_star (t : List Nat) : accepts [.star] t = true := by
  rw [accepts]
  exact anyRest_of_nil rfl t

/-! ### Matching by verdicts

Trying every rest for every star takes a time that grows exponentially with the stars. Instead,
the pieces are taken from the last to the first, and for each the verdicts on all rests of the
text are found at once from those on the pieces behind it. -/

/-- For each place of a list, whether there is a yes at it or behind it. -/
def yesBehind : List Bool → List Bool
  | [] => []
  | b :: bs =>
    let behind := yesBehind bs
    (b || behind.headD false) :: behind

/-- For each rest of a text, whether its first character is accepted and the verdict on what
follows is a yes. -/
def oneThen (p : GlobPiece) : List Nat → List Bool → List Bool
  | c :: rest, _ :: bs => (p.accepts c && bs.headD false) :: oneThen p rest bs
  | _, _ => [false]

/-- Whether pieces match each rest of a text, from the whole text to the empty one. -/
def verdicts : List GlobPiece → List Nat → List Bool
  | [], t => t.map (fun _ => false) ++ [true]
  | .star :: ps, t => yesBehind (verdicts ps t)
  | p :: ps, t => oneThen p t (verdicts ps t)

/-- Whether a pattern matches a string, both by their codes. -/
def matchesCodes (pattern t : List Nat) : Bool := (verdicts (pieces pattern) t).headD false

/-- Whether a pattern matches a text. -/
def matchesText (pattern t : String) : Bool :=
  matchesCodes (codesOf pattern) (codesOf t)

/-- The verdicts on all rests of a text, one after the other. -/
def verdictsByRest (f : List Nat → Bool) : List Nat → List Bool
  | [] => [f []]
  | c :: rest => f (c :: rest) :: verdictsByRest f rest

theorem headD_verdictsByRest (f : List Nat → Bool) (t : List Nat) :
    (verdictsByRest f t).headD false = f t := by
  cases t <;> rfl

theorem verdictsByRest_isEmpty (t : List Nat) :
    verdictsByRest List.isEmpty t = t.map (fun _ => false) ++ [true] := by
  induction t with
  | nil => rfl
  | cons c rest ih => simp [verdictsByRest, ih]

theorem yesBehind_verdictsByRest (f : List Nat → Bool) (t : List Nat) :
    yesBehind (verdictsByRest f t) = verdictsByRest (anyRest f) t := by
  induction t with
  | nil => simp [verdictsByRest, yesBehind, anyRest]
  | cons c rest ih =>
    simp only [verdictsByRest, yesBehind, ih, headD_verdictsByRest, anyRest]

theorem oneThen_verdictsByRest {p : GlobPiece} (hp : p ≠ .star) (ps : List GlobPiece)
    (t : List Nat) :
    oneThen p t (verdictsByRest (accepts ps) t) = verdictsByRest (accepts (p :: ps)) t := by
  induction t with
  | nil =>
    cases p with
    | star => exact absurd rfl hp
    | _ => rfl
  | cons c rest ih =>
    have h : accepts (p :: ps) (c :: rest) = (p.accepts c && accepts ps rest) := by
      cases p with
      | star => exact absurd rfl hp
      | _ => rfl
    simp only [verdictsByRest, oneThen, ih, headD_verdictsByRest, h]

/-- The verdicts found piece by piece are those of matching each rest on its own. -/
theorem verdicts_eq (ps : List GlobPiece) (t : List Nat) :
    verdicts ps t = verdictsByRest (accepts ps) t := by
  induction ps with
  | nil =>
    rw [verdicts, ← verdictsByRest_isEmpty]
    rfl
  | cons p ps ih =>
    by_cases hp : p = .star
    · subst hp
      rw [verdicts, ih, yesBehind_verdictsByRest]
      rfl
    · rw [← oneThen_verdictsByRest hp, ← ih]
      cases p with
      | star => exact absurd rfl hp
      | _ => rfl

/-- A pattern matches a string when its pieces match the whole of it. -/
theorem matchesCodes_eq_accepts (pattern t : List Nat) :
    matchesCodes pattern t = accepts (pieces pattern) t := by
  rw [matchesCodes, verdicts_eq, headD_verdictsByRest]

/-- A lone star matches every text. -/
theorem matchesText_star (t : String) : matchesText "*" t = true := by
  have h : pieces (codesOf "*") = [.star] := by simp [codesOf, Text.toCodes, pieces]
  rw [matchesText, matchesCodes_eq_accepts, h]
  exact accepts_star _

end Glob

end TreeLint
