import TreeLint.Proofs.Text.Segment
import TreeLint.Rule.FolderImport

/-!
# Paths of imports

When a path names a file is said here of its characters, without the functions that test it: it is
relative, has three segments, does not pass through a `components` folder, and ends in a dot and
letters (`NamesFile`, `namesFile_iff`).

A path that starts with `../` is rewritten to one with `./` in front. Of all that counts for the
conditions, this changes the number of segments alone, which grows by one
(`length_splitOn_dotted`). So the rewritten path has three segments in any case, and what is left
of the conditions is that the old path has an extension and is not exempt (`namesFile_dotted_iff`).
-/

namespace TreeLint

namespace FolderImport

/-! ### When a path names a file -/

/-- A text ends in a dot and one ASCII letter or more. -/
def EndsInLetters (t : Text) : Prop :=
  ∃ letters : Text, letters ≠ [] ∧ (∀ c ∈ letters, c.isAlpha = true) ∧ '.' :: letters <:+ t

/-- A path ends in a dot and letters, a line feed behind them aside. -/
def HasExtension (path : Text) : Prop :=
  EndsInLetters path ∨ ∃ front, path = front ++ ['\n'] ∧ EndsInLetters front

/-- A path passes through a `components` folder. -/
def IsExempt (path : Text) : Prop := "/components/".toList <:+: path

/-- A relative path of three segments or more that is not exempt ends in an extension. -/
structure NamesFile (path : Text) : Prop where
  relative : "./".toList <+: path ∨ "../".toList <+: path
  deep : 3 ≤ (path.splitOn '/').length
  notExempt : ¬IsExempt path
  extension : HasExtension path

variable {path t : Text}

theorem endsInExtension_iff : endsInExtension t = true ↔ EndsInLetters t := by
  simp only [endsInExtension, Bool.and_eq_true, Bool.not_eq_true', List.isEmpty_eq_false_iff,
    beq_iff_eq]
  constructor
  · rintro ⟨hletters, hdot⟩
    obtain ⟨front, hfront⟩ := List.head?_eq_some_iff.1 hdot
    refine ⟨(t.reverse.takeWhile Char.isAlpha).reverse, by simpa using hletters, ?_,
      front.reverse, ?_⟩
    · intro c hc
      exact List.mem_takeWhile_imp (List.mem_reverse.1 hc)
    · have hparts := List.takeWhile_append_dropWhile (p := Char.isAlpha) (l := t.reverse)
      rw [hfront] at hparts
      simpa using congrArg List.reverse hparts
  · rintro ⟨letters, hne, hletters, stem, rfl⟩
    have hback : (stem ++ '.' :: letters).reverse = letters.reverse ++ '.' :: stem.reverse := by
      simp
    have hall : ∀ c ∈ letters.reverse, c.isAlpha = true := by
      intro c hc
      exact hletters c (List.mem_reverse.1 hc)
    rw [hback, List.takeWhile_append_of_pos hall, List.dropWhile_append_of_pos hall]
    simp [hne]

theorem hasExtension_iff : hasExtension path = true ↔ HasExtension path := by
  rw [hasExtension, HasExtension, Bool.or_eq_true, endsInExtension_iff, Bool.and_eq_true,
    endsInExtension_iff, beq_iff_eq, List.getLast?_eq_some_iff]
  refine or_congr_right ⟨?_, ?_⟩
  · rintro ⟨⟨front, rfl⟩, hfront⟩
    rw [List.dropLast_concat] at hfront
    exact ⟨front, rfl, hfront⟩
  · rintro ⟨front, rfl, hfront⟩
    rw [List.dropLast_concat]
    exact ⟨⟨front, rfl⟩, hfront⟩

/-- **The rule tests whether a path names a file.** -/
theorem namesFile_iff : namesFile path = true ↔ NamesFile path := by
  simp only [namesFile, isRelative, Bool.and_eq_true, Bool.or_eq_true, Bool.not_eq_true',
    decide_eq_true_eq, hasExtension_iff, List.isPrefixOf_iff_prefix, Text.split_eq_splitOn]
  rw [← Bool.not_eq_true, Text.holds_iff]
  constructor
  · rintro ⟨⟨⟨hextension, hrelative⟩, hexempt⟩, hdeep⟩
    exact ⟨hrelative, hdeep, hexempt, hextension⟩
  · rintro ⟨hrelative, hdeep, hexempt, hextension⟩
    exact ⟨⟨⟨hextension, hrelative⟩, hexempt⟩, hdeep⟩

instance : DecidablePred HasExtension := fun _ => decidable_of_iff _ hasExtension_iff

instance : DecidablePred IsExempt := fun _ => decidable_of_iff _ Text.holds_iff

instance : DecidablePred NamesFile := fun _ => decidable_of_iff _ namesFile_iff

/-! ### Paths with `./` in front -/

/-- What is behind a slash decides on the extension. -/
theorem endsInLetters_append (s : Text) (h : '/' ∈ t) :
    EndsInLetters (s ++ t) ↔ EndsInLetters t := by
  refine exists_congr fun letters => and_congr_right fun _ => and_congr_right fun hletters => ?_
  refine ⟨fun hend => ?_, fun hend => hend.trans (List.suffix_append s t)⟩
  rcases List.suffix_or_suffix_of_suffix hend (List.suffix_append s t) with hin | hover
  · exact hin
  · -- the slash would be the dot or one of the letters
    rcases List.mem_cons.1 (hover.subset h) with hdot | hletter
    · exact absurd hdot (by decide)
    · exact absurd (hletters _ hletter) (by decide)

theorem hasExtension_append (s : Text) (h : '/' ∈ path) :
    HasExtension (s ++ path) ↔ HasExtension path := by
  rw [HasExtension, HasExtension, endsInLetters_append s h]
  refine or_congr_right ⟨?_, ?_⟩
  · intro ⟨front, hfront, hend⟩
    -- the line feed is the last character of the path itself
    obtain ⟨rest, last, rfl⟩ : ∃ rest last, path = rest ++ [last] :=
      ⟨_, _, (List.dropLast_concat_getLast (List.ne_nil_of_mem h)).symm⟩
    rw [← List.append_assoc] at hfront
    obtain ⟨hrest, hlast⟩ := List.append_inj' hfront rfl
    rw [hlast, List.mem_append, List.mem_singleton] at h
    have hslash : '/' ∈ rest := h.resolve_right (by decide)
    rw [← hrest, endsInLetters_append s hslash] at hend
    exact ⟨rest, by rw [hlast], hend⟩
  · intro ⟨front, hfront, hend⟩
    refine ⟨s ++ front, by rw [hfront, List.append_assoc], ?_⟩
    exact hend.imp fun letters hletters =>
      ⟨hletters.1, hletters.2.1, hletters.2.2.trans (List.suffix_append s front)⟩

theorem length_splitOn_dotted (path : Text) :
    (("./".toList ++ path).splitOn '/').length = (path.splitOn '/').length + 1 := by
  show ((['.'] ++ '/' :: path).splitOn '/').length = _
  rw [List.splitOn_append_cons_self, List.splitOn_eq_singleton (by decide), List.length_append]
  exact Nat.add_comm _ _

section

variable (h : "../".toList <+: path)

include h

theorem slash_mem : '/' ∈ path := h.subset (by decide)

/-- A path that leads up has a segment for the dots and one behind them. -/
theorem two_le_length_splitOn : 2 ≤ (path.splitOn '/').length := by
  obtain ⟨rest, rfl⟩ := h
  have hpos := List.length_pos_iff.2 (List.splitOn_ne_nil '/' rest)
  show 2 ≤ ((['.', '.'] ++ '/' :: rest).splitOn '/').length
  rw [List.splitOn_append_cons_self, List.splitOn_eq_singleton (by decide), List.length_append,
    List.length_singleton]
  omega

/-- No `components` folder begins at one of the dots. -/
theorem isExempt_dotted_iff : IsExempt ("./".toList ++ path) ↔ IsExempt path := by
  obtain ⟨rest, rfl⟩ := h
  show _ <:+: '.' :: '/' :: '.' :: '.' :: '/' :: rest ↔ _
  rw [List.infix_cons_iff, List.infix_cons_iff]
  have hfirst : ¬"/components/".toList <+: '.' :: '/' :: '.' :: '.' :: '/' :: rest := by
    simp
  have hsecond : ¬"/components/".toList <+: '/' :: '.' :: '.' :: '/' :: rest := by
    simp
  simp only [hfirst, hsecond, false_or]
  rfl

/-- For a path that leads up, three conditions are left. -/
theorem namesFile_iff_of_up :
    NamesFile path ↔ 3 ≤ (path.splitOn '/').length ∧ HasExtension path ∧ ¬IsExempt path :=
  ⟨fun hfile => ⟨hfile.deep, hfile.extension, hfile.notExempt⟩,
    fun ⟨hdeep, hextension, hexempt⟩ => ⟨Or.inr h, hdeep, hexempt, hextension⟩⟩

/-- **When a rewritten path names a file.** -/
theorem namesFile_dotted_iff :
    NamesFile ("./".toList ++ path) ↔ HasExtension path ∧ ¬IsExempt path := by
  have hsegments := length_splitOn_dotted path
  have htwo := two_le_length_splitOn h
  constructor
  · intro hfile
    exact ⟨(hasExtension_append _ (slash_mem h)).1 hfile.extension,
      fun hexempt => hfile.notExempt ((isExempt_dotted_iff h).2 hexempt)⟩
  · intro ⟨hextension, hexempt⟩
    exact ⟨Or.inl (List.prefix_append _ _), by omega,
      fun hdotted => hexempt ((isExempt_dotted_iff h).1 hdotted),
      (hasExtension_append _ (slash_mem h)).2 hextension⟩

end

end FolderImport

end TreeLint
