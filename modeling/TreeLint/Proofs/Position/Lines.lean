import TreeLint.Proofs.Position.Rank

/-!
# Lines follow the offsets

The line of an offset is looked up in the table of line starts, and its column is what is left
of the offset behind that start. Whatever line breaks a text has, the look-up keeps the order:

* `isBefore_lineColumn` — of two offsets in a text the smaller one comes first, by its line or
  else by its column, so no two offsets share a line and a column (`lineColumn_inj`);
* `line_lt_lineCount` — the line of an offset is one of the lines of the text;
* `breakCount_crlf`, `breakCount_cons`, `breakCount_append` — there is one line more than there are
  breaks, which are counted character by character but for a carriage return with its line feed.
-/

namespace TreeLint

/-! ### The number of breaks -/

/-- The number of line breaks of a text. -/
def breakCount (t : Text) : Nat := (lineBreaks 0 t).length

theorem length_lineBreaks (i : Nat) (t : Text) : (lineBreaks i t).length = breakCount t := by
  have shift : ∀ (i : Nat) (t : Text) (j : Nat),
      (lineBreaks i t).length = (lineBreaks j t).length := by
    intro i t
    fun_induction lineBreaks i t with
    | case1 i => intro j; rfl
    | case2 i rest ih =>
      intro j
      rw [lineBreaks, List.length_cons, List.length_cons, ih (j + 2)]
    | case3 i c rest hcrlf hc ih =>
      intro j
      rw [lineBreaks, if_pos hc, List.length_cons, List.length_cons, ih (j + 1)]
      exact hcrlf
    | case4 i c rest hcrlf hc ih =>
      intro j
      rw [lineBreaks, if_neg hc, ih (j + 1)]
      exact hcrlf
  exact shift i t 0

theorem lineCount_ofText (t : Text) : (PositionIndex.ofText t).lineCount = breakCount t + 1 := by
  simp [PositionIndex.ofText, PositionIndex.lineCount, breakCount]

theorem breakCount_crlf (rest : Text) :
    breakCount ('\r' :: '\n' :: rest) = breakCount rest + 1 := by
  rw [breakCount, lineBreaks, List.length_cons, length_lineBreaks]

theorem breakCount_cons {c : Char} {rest : Text} (h : c = '\r' → rest.head? ≠ some '\n') :
    breakCount (c :: rest) = (if c = '\r' ∨ c = '\n' then 1 else 0) + breakCount rest := by
  have hcrlf : ∀ rest', c = '\r' → rest = '\n' :: rest' → False := by
    intro rest' hc hr
    exact h hc (by rw [hr]; rfl)
  rw [breakCount, lineBreaks]
  · split
    · rw [List.length_cons, length_lineBreaks]
      omega
    · rw [length_lineBreaks]
      omega
  · exact hcrlf

/-- Characters that are no line breaks do not count. -/
theorem breakCount_append {mark : Text} (hmark : ∀ c ∈ mark, c ≠ '\r' ∧ c ≠ '\n') (t : Text) :
    breakCount (mark ++ t) = breakCount t := by
  induction mark with
  | nil => rfl
  | cons c mark ih =>
    obtain ⟨hr, hn⟩ := hmark c List.mem_cons_self
    rw [List.cons_append, breakCount_cons (fun h => absurd h hr), if_neg (by simp [hr, hn]),
      ih (fun d hd => hmark d (List.mem_cons_of_mem _ hd)), Nat.zero_add]

namespace PositionIndex

/-! ### The order of lines and columns -/

/-- One place comes before another if its line does, or its column on the same line. -/
def IsBefore (a b : Nat × Nat) : Prop := a.1 < b.1 ∨ a.1 = b.1 ∧ a.2 < b.2

theorem IsBefore.ne {a b : Nat × Nat} (h : IsBefore a b) : a ≠ b := by
  rintro rfl
  unfold IsBefore at h
  omega

variable (t : Text)

/-- The first line starts at zero, so every offset has a line. -/
theorem rank_lineStarts_pos (o : Nat) : 0 < rank (ofText t).lineStarts o := by
  simp [ofText, rank]

theorem line_lt_lineCount (o : Int) : ((ofText t).lineColumn o).1 < (ofText t).lineCount := by
  have hle := rank_le_length (ofText t).lineStarts ((ofText t).clamp o)
  have hpos := rank_lineStarts_pos t ((ofText t).clamp o)
  show rank (ofText t).lineStarts ((ofText t).clamp o) - 1 < (ofText t).lineStarts.length
  omega

/-- **Lines and columns follow the offsets.** -/
theorem isBefore_lineColumn {x y : Nat} (h : x < y) (hy : y ≤ t.length) :
    IsBefore ((ofText t).lineColumn x) ((ofText t).lineColumn y) := by
  have hmono := rank_mono (ofText t).lineStarts (Nat.le_of_lt h)
  have hstart := getD_rank_le (rank_lineStarts_pos t x)
  simp only [IsBefore, lineColumn, clamp_natCast t hy, clamp_natCast t (show x ≤ t.length by omega)]
  rcases Nat.eq_or_lt_of_le hmono with heq | hlt
  · -- on one line both columns are counted from the same start
    right
    rw [← heq]
    omega
  · left
    have := rank_lineStarts_pos t x
    omega

theorem lineColumn_inj {x y : Nat} (hx : x ≤ t.length) (hy : y ≤ t.length) :
    (ofText t).lineColumn x = (ofText t).lineColumn y ↔ x = y := by
  constructor
  · intro h
    rcases Nat.lt_trichotomy x y with hlt | heq | hgt
    · exact absurd h (isBefore_lineColumn t hlt hy).ne
    · exact heq
    · exact absurd h.symm (isBefore_lineColumn t hgt hx).ne
  · rintro rfl
    rfl

end PositionIndex

end TreeLint
