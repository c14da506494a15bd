import TreeLint.Text.Basic

/-!
# Strings of a host

A host counts a string by its codes, and some of the codes that a string may hold belong to no
character: the halves of the pairs that UTF-16 writes a character with. Such a string is no text
and has no UTF-8 encoding either. Every other one is the text of its characters.
-/

namespace TreeLint

namespace Text

/-- The codes of a text. -/
def toCodes (t : Text) : List Nat := t.map Char.toNat

/-- The text of codes, if all of them are codes of characters. -/
def ofCodes? (codes : List Nat) : Option Text :=
  codes.mapM fun n => if n.isValidChar then some (Char.ofNat n) else none

theorem toNat_ofNat {n : Nat} (h : n.isValidChar) : (Char.ofNat n).toNat = n := by
  have hc : Char.ofNat n = Char.ofNatAux n h := dif_pos h
  rw [hc]
  rfl

theorem ofCodes?_cons (n : Nat) (codes : List Nat) :
    ofCodes? (n :: codes) =
      if n.isValidChar then (ofCodes? codes).map (Char.ofNat n :: ·) else none := by
  rw [ofCodes?, List.mapM_cons, ← ofCodes?]
  split
  · cases ofCodes? codes <;> rfl
  · rfl

/-- The codes of a text are those of its characters, and of no other text. -/
theorem ofCodes?_eq_some_iff {codes : List Nat} {t : Text} :
    ofCodes? codes = some t ↔ codes = t.toCodes := by
  induction codes generalizing t with
  | nil =>
    cases t with
    | nil => exact ⟨fun _ => rfl, fun _ => rfl⟩
    | cons c t => exact ⟨nofun, nofun⟩
  | cons n codes ih =>
    rw [ofCodes?_cons]
    split
    · rename_i hn
      rw [Option.map_eq_some_iff]
      constructor
      · rintro ⟨rest, hrest, rfl⟩
        rw [ih.1 hrest]
        show n :: toCodes rest = (Char.ofNat n).toNat :: toCodes rest
        rw [toNat_ofNat hn]
      · intro h
        cases t with
        | nil => cases h
        | cons c t =>
          obtain ⟨rfl, hrest⟩ := List.cons.inj h
          exact ⟨t, ih.2 hrest, by rw [Char.ofNat_toNat]⟩
    · rename_i hn
      constructor
      · intro h
        cases h
      · intro h
        cases t with
        | nil => cases h
        | cons c t =>
          obtain ⟨rfl, -⟩ := List.cons.inj h
          exact absurd c.valid hn

end Text

/-- The codes of a string without halves of characters. -/
def codesOf (s : String) : List Nat := Text.toCodes s.toList

end TreeLint
