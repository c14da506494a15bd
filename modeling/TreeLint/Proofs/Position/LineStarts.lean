import Mathlib.Order.Interval.Finset.Nat
import TreeLint.Proofs.Position.Lines

/-!
# Where lines start

The table of line starts is filled by one pass over a text, which takes a carriage return with its
line feed as one break. Whether a line starts at an offset can be said without a pass, by the two
characters beside it (`Text.IsLineStart`): a line starts behind a line feed, and behind a carriage
return unless a line feed follows. The two agree on every mixture of breaks:

* `lineStarts_ofText` — the table holds the offsets of that kind and no others, in ascending order
  (`Text.lineStarts`);
* `rank_lineStarts`, `isGreatest_lineStartOf` — the line of an offset is the number of starts behind
  the first one up to it, and its column is what is left behind the last of them.

The main statement is `lineTable_exact`.
-/

namespace TreeLint

/-! ### Line starts by the characters beside them -/

namespace Text

/-- Whether a line starts at an offset: at the start of the text, behind a line feed, or behind a
carriage return that no line feed follows. -/
def IsLineStart (t : Text) : Nat → Prop
  | 0 => True
  | p + 1 => t[p]? = some '\n' ∨ t[p]? = some '\r' ∧ t[p + 1]? ≠ some '\n'

instance (t : Text) : DecidablePred t.IsLineStart
  | 0 => inferInstanceAs (Decidable True)
  | p + 1 => inferInstanceAs
      (Decidable (t[p]? = some '\n' ∨ t[p]? = some '\r' ∧ t[p + 1]? ≠ some '\n'))

theorem IsLineStart.le_length {t : Text} {p : Nat} (h : t.IsLineStart p) : p ≤ t.length := by
  cases p with
  | zero => exact Nat.zero_le _
  | succ p => rcases h with h | ⟨h, -⟩ <;> exact (List.getElem?_eq_some_iff.1 h).1

/-- The offsets at which lines start, in ascending order. -/
def lineStarts (t : Text) : List Nat := (List.range (t.length + 1)).filter t.IsLineStart

theorem mem_lineStarts {t : Text} {p : Nat} : p ∈ t.lineStarts ↔ t.IsLineStart p := by
  rw [lineStarts, List.mem_filter, List.mem_range, decide_eq_true_eq]
  exact ⟨fun h => h.2, fun h => ⟨Nat.lt_succ_of_le h.le_length, h⟩⟩

theorem pairwise_lineStarts (t : Text) : t.lineStarts.Pairwise (· < ·) :=
  List.pairwise_lt_range.filter _

/-- The offsets of the characters behind which a line starts. -/
def lineStops (t : Text) : List Nat := (List.range t.length).filter fun p => t.IsLineStart (p + 1)

theorem lineStarts_eq (t : Text) : t.lineStarts = 0 :: t.lineStops.map (· + 1) := by
  have hzero : decide (t.IsLineStart 0) = true := decide_eq_true trivial
  rw [lineStarts, List.range_succ_eq_map, List.filter_cons, if_pos hzero, List.filter_map]
  rfl

/-- One more character in front moves the others, and may itself be one behind which a line
starts. -/
theorem lineStops_cons (c : Char) (t : Text) :
    lineStops (c :: t) =
      (if IsLineStart (c :: t) 1 then [0] else []) ++ t.lineStops.map (· + 1) := by
  have hrest : (fun p => decide (IsLineStart (c :: t) (p + 1))) ∘ Nat.succ =
      fun p => decide (t.IsLineStart (p + 1)) := rfl
  rw [lineStops, List.length_cons, List.range_succ_eq_map, List.filter_cons, List.filter_map,
    hrest, ← lineStops]
  by_cases hfirst : IsLineStart (c :: t) 1 <;> simp [hfirst]

/-! ### Looking up a line -/

variable (t : Text)

/-- The start of the line that an offset is on. -/
def lineStartOf (o : Nat) : Nat := t.lineStarts.getD (rank t.lineStarts o - 1) 0

/-- The lines up to an offset are the first one and those that start behind it. -/
theorem rank_lineStarts (o : Nat) :
    rank t.lineStarts o = ((Finset.Icc 1 o).filter t.IsLineStart).card + 1 := by
  have hnodup : (t.lineStarts.filter (· ≤ o)).Nodup :=
    (t.pairwise_lineStarts.imp Nat.ne_of_lt).filter _
  have hset : (t.lineStarts.filter (· ≤ o)).toFinset =
      insert 0 ((Finset.Icc 1 o).filter t.IsLineStart) := by
    ext p
    rw [List.mem_toFinset, List.mem_filter, mem_lineStarts, decide_eq_true_eq, Finset.mem_insert,
      Finset.mem_filter, Finset.mem_Icc]
    cases p with
    | zero => simp [IsLineStart]
    | succ p => simp [and_comm]
  rw [rank_eq_countP t.pairwise_lineStarts, List.countP_eq_length_filter,
    ← List.toFinset_card_of_nodup hnodup, hset, Finset.card_insert_of_notMem (by simp)]

theorem isGreatest_lineStartOf (o : Nat) :
    IsGreatest {p | t.IsLineStart p ∧ p ≤ o} (t.lineStartOf o) := by
  have hpos : 0 < rank t.lineStarts o := by
    rw [rank_lineStarts]
    exact Nat.succ_pos _
  have hgreatest := isGreatest_getD_rank t.pairwise_lineStarts hpos
  simp only [mem_lineStarts] at hgreatest
  exact hgreatest

end Text

open Text

/-! ### The pass over the text -/

/-- The breaks that the pass finds end with the characters behind which a line starts. -/
theorem map_snd_lineBreaks (i : Nat) (t : Text) :
    (lineBreaks i t).map Prod.snd = t.lineStops.map (i + 1 + ·) := by
  have hmoved : ∀ (i : Nat) (stops : List Nat),
      (stops.map (· + 1)).map (i + 1 + ·) = stops.map (i + 1 + 1 + ·) := by
    intro i stops
    simp [Function.comp_def, Nat.add_comm, Nat.add_left_comm]
  fun_induction lineBreaks i t with
  | case1 i => rfl
  | case2 i rest ih =>
    -- no line starts between the two characters of the break
    have hreturn : ¬IsLineStart ('\r' :: '\n' :: rest) 1 := by simp [IsLineStart]
    have hfeed : IsLineStart ('\n' :: rest) 1 := Or.inl rfl
    rw [List.map_cons, ih, lineStops_cons, if_neg hreturn, List.nil_append, lineStops_cons,
      if_pos hfeed, hmoved, List.map_append, hmoved]
    rfl
  | case3 i c rest hcrlf hc ih =>
    have hstop : IsLineStart (c :: rest) 1 := by
      rcases hc with rfl | rfl
      · refine Or.inr ⟨rfl, ?_⟩
        rw [List.getElem?_cons_succ, ← List.head?_eq_getElem?]
        intro hfeed
        obtain ⟨rest', rfl⟩ := List.head?_eq_some_iff.1 hfeed
        exact hcrlf rest' rfl rfl
      · exact Or.inl rfl
    rw [List.map_cons, ih, lineStops_cons, if_pos hstop, List.map_append, hmoved]
    rfl
  | case4 i c rest hcrlf hc ih =>
    have hplain : ¬IsLineStart (c :: rest) 1 := by
      rintro (h | ⟨h, -⟩)
      · exact hc (Or.inr (Option.some.inj h))
      · exact hc (Or.inl (Option.some.inj h))
    rw [ih, lineStops_cons, if_neg hplain, List.nil_append, hmoved]

namespace PositionIndex

variable (t : Text)

/-- **The table holds the line starts.** -/
theorem lineStarts_ofText : (ofText t).lineStarts = t.lineStarts := by
  show 0 :: (lineBreaks 0 t).map Prod.snd = t.lineStarts
  rw [map_snd_lineBreaks, lineStarts_eq]
  simp only [Nat.zero_add, Nat.add_comm]

theorem lineColumn_eq (offset : Int) :
    (ofText t).lineColumn offset =
      (rank t.lineStarts ((ofText t).clamp offset) - 1,
        (ofText t).clamp offset - t.lineStartOf ((ofText t).clamp offset)) := by
  rw [lineColumn, lineStarts_ofText, lineStartOf]

/-- **Lines are found by the characters beside their starts.** The table lists exactly the offsets
at which a line starts, in ascending order, and there are as many lines. Any offset, moved into the
text, is on the line whose number is that of the starts behind the first up to it, and its column
is its distance from the last start up to it. -/
theorem lineTable_exact :
    ((ofText t).lineStarts.Pairwise (· < ·) ∧
      ∀ p, p ∈ (ofText t).lineStarts ↔ t.IsLineStart p) ∧
    (ofText t).lineCount = ((Finset.range (t.length + 1)).filter t.IsLineStart).card ∧
    ∀ offset : Int, ∃ o start : Nat, (o : Int) = max 0 (min offset t.length) ∧
      IsGreatest {p | t.IsLineStart p ∧ p ≤ o} start ∧
      (ofText t).lineColumn offset =
        (((Finset.Icc 1 o).filter t.IsLineStart).card, o - start) := by
  refine ⟨⟨?_, ?_⟩, ?_, ?_⟩
  · rw [lineStarts_ofText]
    exact t.pairwise_lineStarts
  · intro p
    rw [lineStarts_ofText, mem_lineStarts]
  · rw [lineCount, lineStarts_ofText]
    rfl
  · intro offset
    refine ⟨_, _, natCast_clamp t offset, t.isGreatest_lineStartOf _, ?_⟩
    rw [lineColumn_eq, rank_lineStarts, Nat.add_sub_cancel]

example : (ofText "a\r\r\nb\n\r".toList).lineStarts = [0, 2, 4, 6, 7] := by decide

end PositionIndex

end TreeLint
