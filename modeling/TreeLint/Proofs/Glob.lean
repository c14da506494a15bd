import TreeLint.Glob
import TreeLint.Proofs.Text.Codes

/-!
# What glob patterns match

The matcher works on tables of verdicts, from the last piece of a pattern to the first. Here a
match is said without it: the text falls apart into one part for each piece of the pattern, any
part for a star and one accepted character for every other piece (`Glob.Fits`). The matcher says
yes exactly on these texts (`matchesText_iff`), whatever characters stand in them; a star takes
line ends and brackets as it takes letters.

Pieces put together match texts put together (`fits_append`). So a pattern without special
characters matches itself and nothing else (`matches_plain`), and with a star behind it the texts
that start with it (`matches_plain_star`), which is how the rules of one category are selected.
-/

namespace TreeLint

namespace Glob

/-! ### Pieces and texts -/

/-- A text that falls apart into one part for each piece. -/
inductive Fits : List GlobPiece → List Nat → Prop where
  | nil : Fits [] []
  | star (part : List Nat) {ps : List GlobPiece} {t : List Nat} (rest : Fits ps t) :
      Fits (.star :: ps) (part ++ t)
  | one {p : GlobPiece} {c : Nat} {ps : List GlobPiece} {t : List Nat} (h : p.accepts c = true)
      (rest : Fits ps t) : Fits (p :: ps) (c :: t)

theorem anyRest_iff {f : List Nat → Bool} {t : List Nat} :
    anyRest f t = true ↔ ∃ part rest, t = part ++ rest ∧ f rest = true := by
  constructor
  · intro h
    induction t with
    | nil => exact ⟨[], [], rfl, h⟩
    | cons c t ih =>
      rw [anyRest, Bool.or_eq_true] at h
      rcases h with hself | hrest
      · exact ⟨[], c :: t, rfl, hself⟩
      · obtain ⟨part, rest, ht, hf⟩ := ih hrest
        exact ⟨c :: part, rest, by rw [ht, List.cons_append], hf⟩
  · rintro ⟨part, rest, rfl, hf⟩
    induction part with
    | nil => exact anyRest_of_self hf
    | cons c part ih => rw [List.cons_append, anyRest, ih, Bool.or_true]

theorem fits_nil_iff {t : List Nat} : Fits [] t ↔ t = [] := by
  constructor
  · intro h
    cases h
    rfl
  · intro h
    subst h
    exact .nil

theorem fits_star_iff {ps : List GlobPiece} {t : List Nat} :
    Fits (.star :: ps) t ↔ ∃ part rest, t = part ++ rest ∧ Fits ps rest := by
  constructor
  · intro h
    cases h with
    | star part rest => exact ⟨part, _, rfl, rest⟩
    | one h rest => cases h
  · rintro ⟨part, rest, rfl, h⟩
    exact .star part h

theorem fits_one_iff {p : GlobPiece} (hp : p ≠ .star) {ps : List GlobPiece} {t : List Nat} :
    Fits (p :: ps) t ↔ ∃ c rest, t = c :: rest ∧ p.accepts c = true ∧ Fits ps rest := by
  constructor
  · intro h
    cases h with
    | star part rest => exact absurd rfl hp
    | one h rest => exact ⟨_, _, rfl, h, rest⟩
  · rintro ⟨c, rest, rfl, hc, h⟩
    exact .one hc h

/-- The matcher finds a way to take a text apart exactly when there is one. -/
theorem accepts_iff {ps : List GlobPiece} {t : List Nat} : accepts ps t = true ↔ Fits ps t := by
  induction ps generalizing t with
  | nil => rw [accepts, List.isEmpty_iff, fits_nil_iff]
  | cons p ps ih =>
    by_cases hp : p = .star
    · subst hp
      rw [accepts, anyRest_iff, fits_star_iff]
      simp only [ih]
    · rw [fits_one_iff hp]
      cases t with
      | nil => simp [accepts]
      | cons c t => simp [accepts, ih, and_assoc]

/-- Pieces put together match texts put together. -/
theorem fits_append {ps qs : List GlobPiece} {t : List Nat} :
    Fits (ps ++ qs) t ↔ ∃ front back, t = front ++ back ∧ Fits ps front ∧ Fits qs back := by
  constructor
  · intro h
    induction ps generalizing t with
    | nil => exact ⟨[], t, rfl, .nil, h⟩
    | cons p ps ih =>
      rw [List.cons_append] at h
      cases h with
      | star part rest =>
        obtain ⟨front, back, rfl, hfront, hback⟩ := ih rest
        exact ⟨part ++ front, back, by rw [List.append_assoc], .star part hfront, hback⟩
      | @one _ c _ _ hc rest =>
        obtain ⟨front, back, rfl, hfront, hback⟩ := ih rest
        exact ⟨c :: front, back, rfl, .one hc hfront, hback⟩
  · rintro ⟨front, back, rfl, hfront, hback⟩
    induction hfront with
    | nil => exact hback
    | star part rest ih =>
      rw [List.append_assoc]
      exact .star part ih
    | one hc rest ih => exact .one hc ih

/-- A star alone leaves nothing out. -/
theorem fits_star (t : List Nat) : Fits [.star] t :=
  fits_star_iff.2 ⟨t, [], (List.append_nil t).symm, .nil⟩

/-- Pieces that stand for one character each match the text of these characters. -/
theorem fits_chars {cs t : List Nat} : Fits (cs.map .char) t ↔ t = cs := by
  induction cs generalizing t with
  | nil => exact fits_nil_iff
  | cons c cs ih =>
    rw [List.map_cons, fits_one_iff (by simp)]
    simp only [ih, GlobPiece.accepts, beq_iff_eq]
    constructor
    · rintro ⟨d, rest, rfl, rfl, rfl⟩
      rfl
    · rintro rfl
      exact ⟨c, cs, rfl, rfl, rfl⟩

/-! ### Patterns and texts -/

/-- A pattern matches a text when the whole text falls apart into the pieces of the pattern. -/
def Matches (pattern t : String) : Prop :=
  Fits (pieces (codesOf pattern)) (codesOf t)

/-- The matcher is right about every pattern and every text. -/
theorem matchesText_iff {pattern t : String} :
    matchesText pattern t = true ↔ Matches pattern t := by
  rw [matchesText, matchesCodes_eq_accepts, accepts_iff, Matches]

instance (pattern t : String) : Decidable (Matches pattern t) :=
  decidable_of_iff _ matchesText_iff

/-- A character that stands for itself wherever it is. -/
def Plain (c : Nat) : Prop := c ≠ '*'.toNat ∧ c ≠ '?'.toNat ∧ c ≠ '['.toNat

instance (c : Nat) : Decidable (Plain c) := inferInstanceAs (Decidable (_ ∧ _))

theorem pieces_plain_append {cs : List Nat} (h : ∀ c ∈ cs, Plain c) (t : List Nat) :
    pieces (cs ++ t) = cs.map .char ++ pieces t := by
  induction cs with
  | nil => rfl
  | cons c cs ih =>
    obtain ⟨hstar, hany, hset⟩ := h c List.mem_cons_self
    rw [List.cons_append, pieces, if_neg hstar, if_neg hany, if_neg hset,
      ih fun d hd => h d (List.mem_cons_of_mem _ hd), List.map_cons, List.cons_append]

theorem pieces_nil : pieces [] = [] := by
  rw [pieces]

theorem pieces_star : pieces ['*'.toNat] = [.star] := by
  rw [pieces, if_pos rfl, pieces_nil]

/-- A star matches every text, the empty one and one with line ends included. -/
theorem matches_star (t : String) : Matches "*" t := matchesText_iff.1 (matchesText_star t)

/-- A pattern without special characters matches itself alone. -/
theorem matches_plain {pattern : String} (h : ∀ c ∈ codesOf pattern, Plain c)
    {t : String} : Matches pattern t ↔ t = pattern := by
  have hpieces := pieces_plain_append h []
  rw [List.append_nil, pieces_nil, List.append_nil] at hpieces
  rw [Matches, hpieces, fits_chars, codesOf_inj]

/-- With a star behind it, such a pattern matches the texts that start with it. -/
theorem matches_plain_star (stem : String) (h : ∀ c ∈ codesOf stem, Plain c) {t : String} :
    Matches (stem ++ "*") t ↔ stem.toList <+: t.toList := by
  rw [Matches, codesOf_append, pieces_plain_append h, fits_append, ← Text.toCodes_prefix_iff]
  constructor
  · rintro ⟨front, back, ht, hfront, -⟩
    rw [fits_chars.1 hfront] at ht
    exact ⟨back, ht.symm⟩
  · rintro ⟨back, ht⟩
    refine ⟨codesOf stem, back, ht.symm, fits_chars.2 rfl, ?_⟩
    show Fits (pieces ['*'.toNat]) back
    rw [pieces_star]
    exact fits_star back

end Glob

end TreeLint
