import Mathlib.Data.List.TakeWhile
import TreeLint.Proofs.Position.LineStarts

/-!
# From offsets to lines and back

Beside the table of line starts stands a table of line ends, filled in the same pass. A line goes
from its start to the next character that a break is made of (`Text.lineFrom`), and the ends are
just the ends of these lines, entry by entry (`lineEnds_ofText`). Two facts about a line carry the
conversions:

* `not_isLineStart_of_le_lineEnd` — no other line starts up to its end, so every offset from the
  start to the end of a line is on it (`lineColumn_of_mem_line`);
* `eq_of_lineEnd_lt` — an offset that is on a line but behind its end stands between a carriage
  return and its line feed.

So an offset comes back from its line and column, unless it stands inside a break of two characters,
and a line and a column come back with the column moved into the line. The main statement is
`conversions_inverse`.
-/

namespace TreeLint

namespace Text

/-! ### A line and its end -/

/-- Whether a character is neither of the two that line breaks are made of. -/
def isPlain (c : Char) : Bool := c != '\r' && c != '\n'

theorem isPlain_eq_false_iff {c : Char} : isPlain c = false ↔ c = '\r' ∨ c = '\n' := by
  simp only [isPlain, Bool.and_eq_false_iff, bne_eq_false_iff_eq]

/-- The characters from an offset up to the next line break, or to the end of the text. -/
def lineFrom (t : Text) (i : Nat) : Text := (t.drop i).takeWhile isPlain

/-- A line without its break. -/
def line (t : Text) (l : Nat) : Text := t.lineFrom (t.lineStarts.getD l 0)

/-- Where the next line break from an offset on starts, or the text ends. -/
def lineEnd (t : Text) (i : Nat) : Nat := i + (t.lineFrom i).length

variable {t : Text} {i j o p s : Nat} {c : Char}

theorem le_lineEnd (t : Text) (i : Nat) : i ≤ t.lineEnd i := Nat.le_add_right _ _

theorem lineEnd_le (h : i ≤ t.length) : t.lineEnd i ≤ t.length := by
  have hlen : (t.lineFrom i).length ≤ (t.drop i).length := (List.takeWhile_prefix _).length_le
  rw [List.length_drop] at hlen
  rw [lineEnd]
  omega

theorem drop_eq_cons (hc : t[i]? = some c) : t.drop i = c :: t.drop (i + 1) := by
  rw [List.drop_eq_getElem?_toList_append, hc]
  rfl

theorem lineEnd_of_break (hc : t[i]? = some c) (h : isPlain c = false) : t.lineEnd i = i := by
  rw [lineEnd, lineFrom, drop_eq_cons hc, List.takeWhile_cons_of_neg (by simp [h])]
  rfl

theorem lineEnd_of_isPlain (hc : t[i]? = some c) (h : isPlain c = true) :
    t.lineEnd i = t.lineEnd (i + 1) := by
  rw [lineEnd, lineFrom, drop_eq_cons hc, List.takeWhile_cons_of_pos h, List.length_cons, lineEnd,
    lineFrom]
  omega

/-- Up to its end a line has plain characters. -/
theorem isPlain_of_lt_lineEnd (hij : i ≤ j) (hj : j < t.lineEnd i) (hc : t[j]? = some c) :
    isPlain c = true := by
  have hlt : j - i < (t.lineFrom i).length := by
    rw [lineEnd] at hj
    omega
  have hget : (t.drop i)[j - i]? = some (t.lineFrom i)[j - i] :=
    List.prefix_iff_getElem?.1 (List.takeWhile_prefix _) _ hlt
  rw [List.getElem?_drop, Nat.add_sub_cancel' hij, hc] at hget
  rw [Option.some.inj hget]
  exact List.mem_takeWhile_imp (List.getElem_mem hlt)

/-- Where a line ends before the text does, there is a break. -/
theorem not_isPlain_lineEnd (hc : t[t.lineEnd i]? = some c) : isPlain c = false := by
  have hhead : ((t.drop i).dropWhile isPlain).head? = some c := by
    have hsplit : (t.drop i)[(t.lineFrom i).length]? = some c := by
      rw [List.getElem?_drop]
      exact hc
    rw [← List.takeWhile_append_dropWhile (p := isPlain) (l := t.drop i), ← lineFrom,
      List.getElem?_append_right (Nat.le_refl _), Nat.sub_self] at hsplit
    rw [List.head?_eq_getElem?]
    exact hsplit
  have hstop := List.head?_dropWhile_not isPlain (t.drop i)
  rw [hhead] at hstop
  exact hstop

/-! ### Which offsets are on a line -/

/-- No other line starts up to the end of a line. -/
theorem not_isLineStart_of_le_lineEnd (hs : s < p) (hp : p ≤ t.lineEnd s) : ¬t.IsLineStart p := by
  obtain ⟨q, rfl⟩ : ∃ q, p = q + 1 := ⟨p - 1, by omega⟩
  rintro (hc | ⟨hc, -⟩)
  · cases isPlain_of_lt_lineEnd (i := s) (by omega) (by omega) hc
  · cases isPlain_of_lt_lineEnd (i := s) (by omega) (by omega) hc

/-- Behind the end of a line the next one starts, unless the break has two characters and the
offset is that of the second one. -/
theorem eq_of_lineEnd_lt (hs : ∀ p, t.IsLineStart p → p ≤ o → p ≤ s) (h : t.lineEnd s < o)
    (ho : o ≤ t.length) :
    o = t.lineEnd s + 1 ∧ t[t.lineEnd s]? = some '\r' ∧ t[t.lineEnd s + 1]? = some '\n' := by
  have hle := t.le_lineEnd s
  obtain ⟨c, hc⟩ : ∃ c, t[t.lineEnd s]? = some c :=
    ⟨_, List.getElem?_eq_getElem (Nat.lt_of_lt_of_le h ho)⟩
  have hnext : ¬t.IsLineStart (t.lineEnd s + 1) := by
    intro hstart
    have := hs _ hstart h
    omega
  rcases isPlain_eq_false_iff.1 (not_isPlain_lineEnd hc) with rfl | rfl
  · have hfeed : t[t.lineEnd s + 1]? = some '\n' := by
      by_contra hne
      exact hnext (Or.inr ⟨hc, hne⟩)
    refine ⟨?_, hc, hfeed⟩
    -- a line starts behind the line feed, so the offset is before that
    by_contra hne
    have := hs (t.lineEnd s + 2) (Or.inl hfeed) (by omega)
    omega
  · exact absurd (Or.inl hc) hnext

/-- Whether an offset stands between a carriage return and its line feed. -/
def PartsBreak (t : Text) (o : Nat) : Prop :=
  0 < o ∧ t[o - 1]? = some '\r' ∧ t[o]? = some '\n'

instance (t : Text) (o : Nat) : Decidable (t.PartsBreak o) :=
  inferInstanceAs (Decidable (_ ∧ _ ∧ _))

/-- An offset is up to the end of its line, or right behind it inside of a break. -/
theorem min_lineEnd_lineStartOf (ho : o ≤ t.length) :
    min o (t.lineEnd (t.lineStartOf o)) = if t.PartsBreak o then o - 1 else o := by
  obtain ⟨⟨hstart, hle⟩, hgreatest⟩ := t.isGreatest_lineStartOf o
  have hlast : ∀ p, t.IsLineStart p → p ≤ o → p ≤ t.lineStartOf o :=
    fun p hp hpo => hgreatest ⟨hp, hpo⟩
  split
  · rename_i hparts
    obtain ⟨hpos, hreturn, hfeed⟩ := hparts
    obtain ⟨q, rfl⟩ : ∃ q, o = q + 1 := ⟨o - 1, by omega⟩
    rw [Nat.add_sub_cancel] at hreturn
    -- the offset is no line start itself, so its line goes on up to the carriage return at most
    have hne : t.lineStartOf (q + 1) ≠ q + 1 := by
      intro heq
      rw [heq] at hstart
      rcases hstart with hc | ⟨-, hc⟩
      · rw [hreturn] at hc
        cases hc
      · exact hc hfeed
    have hend : t.lineEnd (t.lineStartOf (q + 1)) < q + 1 := by
      by_contra hlt
      cases isPlain_of_lt_lineEnd (i := t.lineStartOf (q + 1)) (by omega) (by omega) hreturn
    have := (eq_of_lineEnd_lt hlast hend ho).1
    omega
  · rename_i hparts
    rw [Nat.min_eq_left]
    by_contra hlt
    obtain ⟨heq, hreturn, hfeed⟩ := eq_of_lineEnd_lt hlast (Nat.lt_of_not_le hlt) ho
    rw [← heq] at hfeed
    exact hparts ⟨by omega, by rw [heq]; exact hreturn, hfeed⟩

end Text

open Text

/-! ### The table of ends -/

/-- In one pass over the rest of a text the breaks give the ends of the lines, if the line that goes
on at its start came from `s`. -/
theorem map_fst_lineBreaks {t : Text} (i : Nat) (rest : Text) (hdrop : t.drop i = rest)
    (hlen : i + rest.length = t.length) {s : Nat} (hs : t.lineEnd s = t.lineEnd i) :
    (lineBreaks i rest).map Prod.fst ++ [t.length] =
      (s :: (lineBreaks i rest).map Prod.snd).map t.lineEnd := by
  have hstep : ∀ {i : Nat} {c : Char} {rest : Text}, t.drop i = c :: rest →
      t[i]? = some c ∧ t.drop (i + 1) = rest := by
    intro i c rest h
    refine ⟨?_, ?_⟩
    · rw [← List.head?_drop, h]
      rfl
    · rw [← List.tail_drop, h]
      rfl
  fun_induction lineBreaks i rest generalizing s with
  | case1 i =>
    have hi : i = t.length := by simpa using hlen
    subst hi
    have hend := lineEnd_le (Nat.le_refl t.length)
    have hle := t.le_lineEnd t.length
    simp only [List.map_nil, List.nil_append, List.map_cons, hs]
    rw [Nat.le_antisymm hend hle]
  | case2 i rest ih =>
    obtain ⟨hc, hrest⟩ := hstep hdrop
    have hnext := (hstep hrest).2
    rw [List.map_cons, List.map_cons, List.cons_append, List.map_cons, hs,
      lineEnd_of_break hc rfl, ih hnext (by simp at hlen; omega) rfl]
  | case3 i c rest hcrlf hbreak ih =>
    obtain ⟨hc, hrest⟩ := hstep hdrop
    rw [List.map_cons, List.map_cons, List.cons_append, List.map_cons, hs,
      lineEnd_of_break hc (isPlain_eq_false_iff.2 hbreak), ih hrest (by simp at hlen; omega) rfl]
  | case4 i c rest hcrlf hbreak ih =>
    obtain ⟨hc, hrest⟩ := hstep hdrop
    have hplain : isPlain c = true := by
      rw [← Bool.not_eq_false, isPlain_eq_false_iff]
      exact hbreak
    exact ih hrest (by simp at hlen; omega) (hs.trans (lineEnd_of_isPlain hc hplain))

namespace PositionIndex

variable (t : Text)

/-- **The two tables belong together.** Each line ends at the next break from its start on. -/
theorem lineEnds_ofText : (ofText t).lineEnds = t.lineStarts.map t.lineEnd := by
  rw [← lineStarts_ofText]
  exact map_fst_lineBreaks 0 t rfl (Nat.zero_add _) rfl

theorem lineCount_eq : (ofText t).lineCount = t.lineStarts.length := by
  rw [lineCount, lineStarts_ofText]

/-! ### Conversions -/

variable {t}

theorem offsetAt_of_lt {l : Nat} (hl : l < t.lineStarts.length) (column : Int) :
    (ofText t).offsetAt l column = t.lineStarts[l] + min column.toNat (t.line l).length := by
  have hstart : (ofText t).lineStarts[(l : Int).toNat]? = some t.lineStarts[l] := by
    rw [lineStarts_ofText, Int.toNat_natCast, List.getElem?_eq_getElem hl]
  have hend : (ofText t).lineEnds[(l : Int).toNat]? = some (t.lineEnd t.lineStarts[l]) := by
    rw [lineEnds_ofText, Int.toNat_natCast, List.getElem?_map, List.getElem?_eq_getElem hl]
    rfl
  have hline : t.lineEnd t.lineStarts[l] - t.lineStarts[l] = (t.line l).length := by
    rw [lineEnd, Nat.add_sub_cancel_left, line, List.getD_eq_getElem _ _ hl]
  rw [offsetAt, if_neg (by omega), hstart, hend]
  dsimp only
  rw [hline]

theorem offsetAt_of_le {l : Int} (hl : (t.lineStarts.length : Int) ≤ l) (column : Int) :
    (ofText t).offsetAt l column = t.length := by
  have hnone : (ofText t).lineStarts[l.toNat]? = none := by
    rw [lineStarts_ofText, List.getElem?_eq_none (by omega)]
  rw [offsetAt, if_neg (by omega), hnone]
  rfl

/-- Every offset from the start to the end of a line is on it. -/
theorem lineColumn_of_mem_line {l : Nat} (hl : l < t.lineStarts.length) {k : Nat}
    (hk : k ≤ (t.line l).length) :
    t.lineStarts[l] + k ≤ t.length ∧
      (ofText t).lineColumn (t.lineStarts[l] + k : Nat) = (l, k) := by
  have hstart := mem_lineStarts.1 (List.getElem_mem hl)
  rw [line, List.getD_eq_getElem _ _ hl] at hk
  have hend : t.lineStarts[l] + k ≤ t.lineEnd t.lineStarts[l] := Nat.add_le_add_left hk _
  have hlen : t.lineStarts[l] + k ≤ t.length := Nat.le_trans hend (lineEnd_le hstart.le_length)
  have hrank : rank t.lineStarts (t.lineStarts[l] + k) = l + 1 := by
    have hcounted := (lt_rank_iff t.pairwise_lineStarts hl).2 (Nat.le_add_right t.lineStarts[l] k)
    have hle := rank_le_length t.lineStarts (t.lineStarts[l] + k)
    by_contra hne
    have hl' : l + 1 < t.lineStarts.length := by omega
    have hlater := (lt_rank_iff t.pairwise_lineStarts hl').1
      (show l + 1 < rank t.lineStarts (t.lineStarts[l] + k) by omega)
    have hafter := List.pairwise_iff_getElem.1 t.pairwise_lineStarts l (l + 1) hl hl' (by omega)
    exact not_isLineStart_of_le_lineEnd hafter (Nat.le_trans hlater hend)
      (mem_lineStarts.1 (List.getElem_mem hl'))
  refine ⟨hlen, ?_⟩
  rw [lineColumn_eq, clamp_natCast t hlen, lineStartOf, hrank, Nat.add_sub_cancel,
    List.getD_eq_getElem _ _ hl, Nat.add_sub_cancel_left]

/-- The last line ends with the text. -/
theorem lineStarts_add_last {l : Nat} (hl : l + 1 = t.lineStarts.length) :
    t.lineStarts[l] + (t.line l).length = t.length := by
  have hlast : (ofText t).lineEnds[l]? = some t.length := by
    have hbreaks : l = ((lineBreaks 0 t).map Prod.fst).length := by
      rw [← lineCount_eq, lineCount_ofText, breakCount] at hl
      rw [List.length_map]
      omega
    show ((lineBreaks 0 t).map Prod.fst ++ [t.length])[l]? = some t.length
    rw [hbreaks, List.getElem?_concat_length]
  rw [lineEnds_ofText, List.getElem?_map, List.getElem?_eq_getElem (by omega)] at hlast
  rw [line, List.getD_eq_getElem _ _ (by omega)]
  exact Option.some.inj hlast

/-- An offset comes back from its line and column, but not from behind the end of its line. -/
theorem offsetAt_lineColumn {o : Nat} (ho : o ≤ t.length) :
    (ofText t).offsetAt ((ofText t).lineColumn o).1 ((ofText t).lineColumn o).2 =
      min o (t.lineEnd (t.lineStartOf o)) := by
  have hle := (t.isGreatest_lineStartOf o).1.2
  have hl : rank t.lineStarts o - 1 < t.lineStarts.length := by
    have := line_lt_lineCount t o
    rw [lineColumn_eq, clamp_natCast t ho, lineCount_eq] at this
    exact this
  have hstart : t.lineStarts[rank t.lineStarts o - 1] = t.lineStartOf o := by
    rw [lineStartOf, List.getD_eq_getElem _ _ hl]
  have hline : t.line (rank t.lineStarts o - 1) = t.lineFrom (t.lineStartOf o) := rfl
  rw [lineColumn_eq, clamp_natCast t ho, offsetAt_of_lt hl, hstart, hline, Int.toNat_natCast,
    lineEnd]
  omega

/-- **Offsets and places lead back to each other.** The line and the column of an offset give the
offset back, unless it stands between a carriage return and its line feed: then they give the
offset of the carriage return. A line and a column give an offset of the text, and that offset is
on the same line, in the same column as far as the line goes. A line before the first one leads to
the start of the text, and a line behind the last one to the end of the last line. -/
theorem conversions_inverse (t : Text) :
    (∀ o : Nat, o ≤ t.length →
      (ofText t).offsetAt ((ofText t).lineColumn o).1 ((ofText t).lineColumn o).2 =
        if t.PartsBreak o then o - 1 else o) ∧
    ∀ l column : Int,
      (ofText t).offsetAt l column ≤ t.length ∧
      (ofText t).lineColumn ((ofText t).offsetAt l column) =
        if l < 0 then (0, 0)
        else if l < (ofText t).lineCount then
          (l.toNat, min column.toNat (t.line l.toNat).length)
        else ((ofText t).lineCount - 1, (t.line ((ofText t).lineCount - 1)).length) := by
  have hfirst : 0 < t.lineStarts.length := by
    rw [lineStarts_eq]
    exact Nat.succ_pos _
  refine ⟨?_, ?_⟩
  · intro o ho
    rw [offsetAt_lineColumn ho, min_lineEnd_lineStartOf ho]
  · intro l column
    rw [lineCount_eq]
    rcases Int.lt_or_le l 0 with hneg | hnonneg
    · have hstart : t.lineStarts[0] = 0 := by simp [lineStarts_eq]
      have hplace := lineColumn_of_mem_line hfirst (Nat.zero_le _)
      rw [hstart] at hplace
      rw [offsetAt, if_pos hneg, if_pos hneg]
      exact hplace
    · obtain ⟨k, rfl⟩ := Int.eq_ofNat_of_zero_le hnonneg
      rw [if_neg (by omega), Int.toNat_natCast]
      rcases Nat.lt_or_ge k t.lineStarts.length with hk | hk
      · have hplace := lineColumn_of_mem_line hk (Nat.min_le_right column.toNat (t.line k).length)
        rw [offsetAt_of_lt hk, if_pos (by omega)]
        exact hplace
      · have hlast : t.lineStarts.length - 1 < t.lineStarts.length := by omega
        have hplace := lineColumn_of_mem_line hlast (Nat.le_refl _)
        rw [lineStarts_add_last (by omega)] at hplace
        rw [offsetAt_of_le (by omega), if_neg (by omega)]
        exact hplace

/-- A text with an empty line between a break of two characters and one of one. -/
def brokenText : Text := "ab\r\n\rc".toList

/-- An offset inside of a break, and a column before and one behind a line. -/
theorem brokenText_converted :
    3 ≤ brokenText.length ∧
      (ofText brokenText).offsetAt ((ofText brokenText).lineColumn (3 : Nat)).1
        ((ofText brokenText).lineColumn (3 : Nat)).2 = 2 ∧
      (ofText brokenText).lineColumn ((ofText brokenText).offsetAt 0 9) = (0, 2) ∧
      (ofText brokenText).lineColumn ((ofText brokenText).offsetAt 2 (-4)) = (2, 0) ∧
      (ofText brokenText).lineColumn ((ofText brokenText).offsetAt 5 0) = (2, 1) := by
  obtain ⟨hoffset, hplace⟩ := conversions_inverse brokenText
  have hparts : brokenText.PartsBreak 3 := by decide
  have hinside := hoffset 3 (by decide)
  rw [if_pos hparts] at hinside
  exact ⟨by decide, hinside, (hplace 0 9).2.trans (by decide), (hplace 2 (-4)).2.trans (by decide),
    (hplace 5 0).2.trans (by decide)⟩

end PositionIndex

end TreeLint
