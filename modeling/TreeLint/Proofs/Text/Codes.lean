import Mathlib.Data.List.Infix
import TreeLint.Text.Codes

/-!
# Texts by their codes

A text is known by its codes, and what stands at the front of it is known by the codes there. So
the fixed start of a pattern is compared with a text code by code, whether the whole pattern is a
text or not (`toCodes_prefix_iff`).
-/

namespace TreeLint

namespace Text

variable {t u : Text}

theorem toNat_injective : Function.Injective Char.toNat := fun _ _ h => Char.toNat_inj.1 h

@[simp] theorem length_toCodes (t : Text) : t.toCodes.length = t.length := List.length_map _

theorem toCodes_append (t u : Text) : (t ++ u).toCodes = t.toCodes ++ u.toCodes :=
  List.map_append

theorem toCodes_inj : t.toCodes = u.toCodes ↔ t = u :=
  List.map_inj_right fun _ _ h => toNat_injective h

theorem toCodes_prefix_iff : t.toCodes <+: u.toCodes ↔ t <+: u :=
  List.prefix_map_iff_of_injective toNat_injective

theorem ofCodes?_toCodes (t : Text) : ofCodes? t.toCodes = some t := ofCodes?_eq_some_iff.2 rfl

end Text

theorem codesOf_append (s t : String) : codesOf (s ++ t) = codesOf s ++ codesOf t := by
  rw [codesOf, String.toList_append, Text.toCodes_append]
  rfl

theorem codesOf_inj {s t : String} : codesOf s = codesOf t ↔ s = t := by
  rw [codesOf, codesOf, Text.toCodes_inj, String.toList_inj]

end TreeLint
