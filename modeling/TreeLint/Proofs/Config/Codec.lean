import TreeLint.Config.Codec
import TreeLint.Proofs.Value.Reordered

/-!
# Faithful libraries

A library is `Faithful` if it reads back what it has written as the same data. The order of entries
is left to it, in mappings at any depth: the one for YAML sorts them (`Value.reordered_sorted`).

Every library has a faithful part, `Codec.checked`. It reads what it is about to write, and writes
nothing unless that comes back as the sorted value (`Codec.faithful_checked`).
-/

namespace TreeLint

open Value

/-! ### Sorted values -/

mutual
/-- Sorting all mappings in a value only puts their entries in another order. -/
theorem Value.reordered_sorted : (v : Value) → v.Reordered v.sorted
  | .scalar s => .refl (.scalar s)
  | .list xs => .of_items (forall₂_sortedItems xs)
  | .pair a b => .trans (.first b a.reordered_sorted) (.second a.sorted b.reordered_sorted)
  | .map es =>
    .of_reorders ⟨sortedEntries es, forall₂_sortedEntries es,
      (Entries.perm_sorted (sortedEntries es)).symm⟩
theorem forall₂_sortedItems : (xs : List Value) → List.Forall₂ Reordered xs (sortedItems xs)
  | [] => .nil
  | x :: xs => .cons x.reordered_sorted (forall₂_sortedItems xs)
theorem forall₂_sortedEntries : (es : List (Scalar × Value)) →
    List.Forall₂ (fun a b => a.1 = b.1 ∧ Reordered a.2 b.2) es (sortedEntries es)
  | [] => .nil
  | (_, v) :: es => .cons ⟨rfl, v.reordered_sorted⟩ (forall₂_sortedEntries es)
end

namespace Codec

/-! ### What is asked of a library -/

/-- What is asked of a library. -/
structure Faithful (codec : Codec) : Prop where
  /-- A whole number that is too long to be shown cannot be written. -/
  showable : ∀ {v : Value} {t : Text}, codec.write v = some t → v.isShowable = true
  /-- Whatever was written is read back, but for the order of entries. -/
  returns : ∀ {v : Value} {t : Text}, codec.write v = some t →
    ∃ w, codec.read t.fileBytes.toList = .ok w ∧ v.Reordered w

/-- The library that writes only what it reads back sorted. -/
def checked (codec : Codec) : Codec where
  write v := (codec.write v).filter fun t =>
    v.isShowable && decide ((codec.read t.fileBytes.toList).toOption = some v.sorted)
  read := codec.read

theorem write_checked_eq_some_iff {codec : Codec} {v : Value} {t : Text} :
    codec.checked.write v = some t ↔
      codec.write v = some t ∧ v.isShowable = true ∧
        codec.read t.fileBytes.toList = .ok v.sorted := by
  rw [checked, Option.filter_eq_some_iff, Bool.and_eq_true, decide_eq_true_eq]
  refine and_congr_right fun _ => and_congr_right fun _ => ?_
  cases codec.read t.fileBytes.toList with
  | error f => exact ⟨nofun, nofun⟩
  | ok w => exact ⟨fun h => congrArg _ (Option.some.inj h), fun h => congrArg _ (Except.ok.inj h)⟩

/-- **Whatever the library, its checked part is faithful.** -/
theorem faithful_checked (codec : Codec) : codec.checked.Faithful where
  showable h := (write_checked_eq_some_iff.1 h).2.1
  returns {v _} h := ⟨v.sorted, (write_checked_eq_some_iff.1 h).2.2, v.reordered_sorted⟩

end Codec

end TreeLint
