import TreeLint.Proofs.Position.Bytes
import TreeLint.Proofs.Position.Lines

/-!
# Insertions

`t.insertAt mark places` is the text `t` with `mark` put in at some of its offsets, all at
once: the places are offsets of `t` itself, and nothing else of `t` changes.

What is known about it:

* `slice_insertAt` — a part of the text is found again at its moved offsets (`Text.moved`), with
  the marks of its own places in it;
* `slice_quoted_moved` — between two quotes the same text is found again, with a mark in front of
  it if a place is there;
* `moved_eq`, `byteLength_take_moved` — an offset moves by the characters of the marks before it,
  and its byte by their bytes;
* `lineCount_insertAt` — a mark without line breaks leaves the number of lines as it is, unless it
  comes to stand before a line feed, where it could part a carriage return from it.
-/

namespace TreeLint

namespace Text

/-- Put a mark before each character that stands at one of the places, when the first character
stands at offset `i`. -/
def markFrom (mark : Text) (places : List Nat) : Nat → Text → Text
  | _, [] => []
  | i, c :: rest => (if i ∈ places then mark else []) ++ c :: markFrom mark places (i + 1) rest

/-- A text with a mark put in at each of the places. The end of the text is a place as well. -/
def insertAt (t mark : Text) (places : List Nat) : Text :=
  markFrom mark places 0 t ++ if t.length ∈ places then mark else []

/-- Where the character at an offset comes to stand. -/
def moved (t mark : Text) (places : List Nat) (o : Nat) : Nat :=
  (markFrom mark places 0 (t.take o)).length

variable {mark : Text} {places : List Nat}

/-! ### Parts of a marked text -/

theorem markFrom_append (s t : Text) (i : Nat) :
    markFrom mark places i (s ++ t) =
      markFrom mark places i s ++ markFrom mark places (i + s.length) t := by
  induction s generalizing i with
  | nil => rfl
  | cons c s ih =>
    rw [List.cons_append, markFrom, markFrom, ih, List.length_cons,
      show i + 1 + s.length = i + (s.length + 1) from by omega]
    simp only [List.append_assoc, List.cons_append]

/-- Only the places that the text covers count. -/
theorem markFrom_congr {places' : List Nat} (t : Text) (i : Nat)
    (h : ∀ p, i ≤ p → p < i + t.length → (p ∈ places ↔ p ∈ places')) :
    markFrom mark places i t = markFrom mark places' i t := by
  induction t generalizing i with
  | nil => rfl
  | cons c t ih =>
    have hi : i ∈ places ↔ i ∈ places' := h i (by omega) (by simp only [List.length_cons]; omega)
    have ht : markFrom mark places (i + 1) t = markFrom mark places' (i + 1) t := by
      apply ih
      intro p h₁ h₂
      exact h p (by omega) (by simp only [List.length_cons]; omega)
    simp only [markFrom, hi, ht]

/-- A text without places stays as it is. -/
theorem markFrom_eq_self (t : Text) (i : Nat)
    (h : ∀ p ∈ places, i ≤ p → i + t.length ≤ p) : markFrom mark places i t = t := by
  have hnone : markFrom mark places i t = markFrom mark [] i t := by
    apply markFrom_congr
    intro p h₁ h₂
    simp only [List.not_mem_nil, iff_false]
    intro hp
    have := h p hp h₁
    omega
  rw [hnone]
  clear h hnone
  induction t generalizing i with
  | nil => rfl
  | cons c t ih => simp [markFrom, ih]

/-- A text whose first character alone stands at a place gets the mark in front. -/
theorem markFrom_eq_append (t : Text) (i : Nat) (ht : t ≠ []) (hi : i ∈ places)
    (h : ∀ p ∈ places, i < p → i + t.length ≤ p) : markFrom mark places i t = mark ++ t := by
  cases t with
  | nil => exact absurd rfl ht
  | cons c t =>
    have hrest : markFrom mark places (i + 1) t = t := by
      apply markFrom_eq_self
      intro p hp hip
      have := h p hp (by omega)
      simp only [List.length_cons] at this
      omega
    rw [markFrom, if_pos hi, hrest]

theorem insertAt_nil (t : Text) : t.insertAt mark [] = t := by
  rw [insertAt, markFrom_eq_self t 0 (by simp), if_neg List.not_mem_nil, List.append_nil]

/-- An inserted text falls into the same parts as the text itself. -/
theorem insertAt_eq_append (t : Text) {a b : Nat} (hab : a ≤ b) (hb : b ≤ t.length) :
    t.insertAt mark places =
      markFrom mark places 0 (t.take a) ++ markFrom mark places a (t.slice a b) ++
        (markFrom mark places b (t.drop b) ++ if t.length ∈ places then mark else []) := by
  have hparts : t = t.take a ++ t.slice a b ++ t.drop b := by
    rw [← take_eq_take_append t hab, List.take_append_drop]
  have hla : (t.take a).length = a := List.length_take_of_le (Nat.le_trans hab hb)
  have hlb : (t.take a ++ t.slice a b).length = b := by
    rw [← take_eq_take_append t hab, List.length_take_of_le hb]
  rw [insertAt, hparts, markFrom_append, markFrom_append, hla, hlb, ← hparts]
  simp only [Nat.zero_add, List.append_assoc]

/-- **A part is found again at its moved offsets**, with the marks of its own places in it. -/
theorem slice_insertAt (t : Text) {a b : Nat} (hab : a ≤ b) (hb : b ≤ t.length) :
    (t.insertAt mark places).slice (t.moved mark places a) (t.moved mark places b) =
      markFrom mark places a (t.slice a b) := by
  have hla : (t.take a).length = a := List.length_take_of_le (Nat.le_trans hab hb)
  have hmoved : t.moved mark places b =
      (markFrom mark places 0 (t.take a) ++ markFrom mark places a (t.slice a b)).length := by
    rw [moved, take_eq_take_append t hab, markFrom_append, hla, Nat.zero_add]
  rw [slice, insertAt_eq_append t hab hb, hmoved, List.take_left, moved, List.drop_left]

theorem moved_le (t : Text) {o : Nat} (ho : o ≤ t.length) :
    t.moved mark places o ≤ (t.insertAt mark places).length := by
  rw [insertAt_eq_append t (Nat.le_refl o) ho]
  simp only [moved, List.length_append]
  omega

/-- Behind a character that stands at no place, things move as far as before it. -/
theorem moved_succ (t : Text) {o : Nat} (ho : o < t.length) (hp : o ∉ places) :
    t.moved mark places (o + 1) = t.moved mark places o + 1 := by
  have hself : markFrom mark places o (t.slice o (o + 1)) = t.slice o (o + 1) := by
    apply markFrom_eq_self
    intro p hmem hle
    have hne : p ≠ o := fun h => hp (h ▸ hmem)
    rw [length_slice]
    omega
  have hlen : (t.take o).length = o := List.length_take_of_le (Nat.le_of_lt ho)
  rw [moved, take_eq_take_append t (Nat.le_add_right o 1), markFrom_append, hlen, Nat.zero_add,
    hself, List.length_append, length_slice, moved]
  omega

/-- What stands between two characters at no place is found again between them, with the marks
of its own places in it. -/
theorem slice_between_moved (t : Text) {a b : Nat} (hab : a + 2 ≤ b) (hb : b ≤ t.length)
    (hfirst : a ∉ places) (hlast : b - 1 ∉ places) :
    (t.insertAt mark places).slice (t.moved mark places a + 1) (t.moved mark places b - 1) =
      markFrom mark places (a + 1) (t.slice (a + 1) (b - 1)) := by
  have hstart : t.moved mark places (a + 1) = t.moved mark places a + 1 :=
    moved_succ t (by omega) hfirst
  have hstop : t.moved mark places (b - 1 + 1) = t.moved mark places (b - 1) + 1 :=
    moved_succ t (by omega) hlast
  rw [show b - 1 + 1 = b by omega] at hstop
  rw [← hstart, hstop, Nat.add_sub_cancel]
  exact slice_insertAt t (by omega) (by omega)

/-- **What stands between two quotes** at `a` and before `b` gets a mark in front if a place is
there, and is found again as it was otherwise. No other place may lie between the quotes. -/
theorem slice_quoted_moved (t : Text) {a b : Nat} (hab : a ≤ b) (hb : b ≤ t.length) {R : Prop}
    [Decidable R] (hbeside : ∀ p ∈ places, p < a ∨ b < p ∨ p = a + 1 ∧ R)
    (hmarked : R → a + 1 ∈ places ∧ a + 3 ≤ b) :
    (t.insertAt mark places).slice (t.moved mark places a + 1) (t.moved mark places b - 1) =
      if R then mark ++ t.slice (a + 1) (b - 1) else t.slice (a + 1) (b - 1) := by
  have hfirst : a ∉ places := by
    intro hmem
    have := hbeside a hmem
    omega
  rcases Nat.lt_or_ge (a + 1) b with hlong | hshort
  · have hlast : b - 1 ∉ places := by
      intro hmem
      rcases hbeside _ hmem with hlt | hlt | ⟨heq, hr⟩
      · omega
      · omega
      · have := (hmarked hr).2
        omega
    have hlen : (t.slice (a + 1) (b - 1)).length = b - 1 - (a + 1) := by
      rw [length_slice]
      omega
    rw [slice_between_moved t hlong hb hfirst hlast]
    by_cases hr : R
    · rw [if_pos hr]
      have hroom := (hmarked hr).2
      apply markFrom_eq_append _ _ _ (hmarked hr).1
      · intro p hp hlt
        have := hbeside p hp
        omega
      · apply List.ne_nil_of_length_pos
        omega
    · rw [if_neg hr]
      apply markFrom_eq_self
      intro p hp hle
      rcases hbeside p hp with hlt | hlt | ⟨_, hr'⟩
      · omega
      · omega
      · exact absurd hr' hr
  · -- there is nothing between the quotes, before and after
    have hr : ¬R := by
      intro hr
      have := (hmarked hr).2
      omega
    have hmoved : t.moved mark places b ≤ t.moved mark places a + 1 := by
      rcases Nat.eq_or_lt_of_le hab with rfl | hlt
      · omega
      · have hnext : b = a + 1 := by omega
        subst hnext
        exact Nat.le_of_eq (moved_succ t (by omega) hfirst)
    have hempty : ∀ (u : Text) (i j : Nat), j ≤ i → u.slice i j = [] := by
      intro u i j hij
      rw [← List.length_eq_zero_iff, length_slice]
      omega
    rw [if_neg hr, hempty _ _ _ (by omega), hempty _ _ _ (by omega)]

theorem take_moved (t : Text) {o : Nat} (ho : o ≤ t.length) :
    (t.insertAt mark places).take (t.moved mark places o) =
      markFrom mark places 0 (t.take o) := by
  rw [insertAt_eq_append t (Nat.le_refl o) ho, moved, List.append_assoc, List.take_left]

/-! ### How far an offset moves -/

theorem countP_window_succ (places : List Nat) (i n : Nat) :
    places.countP (fun p => decide (i ≤ p ∧ p < i + (n + 1))) =
      places.count i + places.countP (fun p => decide (i + 1 ≤ p ∧ p < i + 1 + n)) := by
  induction places with
  | nil => rfl
  | cons q places ih =>
    simp only [List.countP_cons, List.count_cons, ih, decide_eq_true_eq, beq_iff_eq]
    by_cases hq : q = i
    · subst hq
      rw [if_pos (by omega), if_pos rfl, if_neg (by omega)]
      omega
    · rw [if_neg hq]
      by_cases hw : i + 1 ≤ q ∧ q < i + 1 + n
      · rw [if_pos (by omega), if_pos hw]
        omega
      · rw [if_neg (by omega), if_neg hw]
        omega

/-- A marked text weighs more than the text by a mark for each place that it covers, whatever its
characters weigh. -/
theorem sum_map_markFrom (weight : Char → Nat) (hp : places.Nodup) (t : Text) (i : Nat) :
    ((markFrom mark places i t).map weight).sum =
      (t.map weight).sum +
        (mark.map weight).sum * places.countP (fun p => decide (i ≤ p ∧ p < i + t.length)) := by
  induction t generalizing i with
  | nil =>
    have hnone : places.countP (fun p => decide (i ≤ p ∧ p < i + ([] : Text).length)) = 0 := by
      rw [List.countP_eq_zero]
      intro p _
      simp only [List.length_nil, decide_eq_true_eq]
      omega
    rw [hnone, markFrom, Nat.mul_zero, Nat.add_zero]
  | cons c t ih =>
    have hhead : ((if i ∈ places then mark else []).map weight).sum =
        (mark.map weight).sum * places.count i := by
      by_cases hi : i ∈ places
      · have hle := List.nodup_iff_count.1 hp i
        have hpos := List.count_pos_iff.2 hi
        rw [if_pos hi, show places.count i = 1 from by omega, Nat.mul_one]
      · rw [if_neg hi, List.count_eq_zero.2 hi, Nat.mul_zero, List.map_nil, List.sum_nil]
    rw [markFrom, List.map_append, List.map_cons, List.map_cons, List.sum_append, List.sum_cons,
      List.sum_cons, ih, hhead, List.length_cons, countP_window_succ, Nat.mul_add]
    omega

/-- Up to a place, only the marks before it count. -/
theorem sum_map_markFrom_take (weight : Char → Nat) (hp : places.Nodup) (t : Text) {o : Nat}
    (ho : o ≤ t.length) :
    ((markFrom mark places 0 (t.take o)).map weight).sum =
      ((t.take o).map weight).sum +
        (mark.map weight).sum * places.countP (fun p => decide (p < o)) := by
  rw [sum_map_markFrom weight hp, List.length_take_of_le ho]
  simp only [Nat.zero_le, true_and, Nat.zero_add]

/-- The byte of an offset moves by the bytes of a mark for each place before it. -/
theorem byteLength_take_moved (hp : places.Nodup) (t : Text) {o : Nat} (ho : o ≤ t.length) :
    byteLength ((t.insertAt mark places).take (t.moved mark places o)) =
      byteLength (t.take o) + byteLength mark * places.countP (fun p => decide (p < o)) := by
  simp only [take_moved t ho, byteLength_eq_sum, sum_map_markFrom_take _ hp t ho]

/-- An offset moves by the characters of a mark for each place before it. -/
theorem moved_eq (hp : places.Nodup) (t : Text) {o : Nat} (ho : o ≤ t.length) :
    t.moved mark places o = o + mark.length * places.countP (fun p => decide (p < o)) := by
  have hones : ∀ u : Text, (u.map fun _ => 1).sum = u.length := by
    intro u
    rw [List.map_const', List.sum_replicate_nat, Nat.mul_one]
  have hsum : ((markFrom mark places 0 (t.take o)).map fun _ => 1).sum = _ :=
    sum_map_markFrom_take (fun _ => 1) hp t ho
  rw [hones, hones, hones, List.length_take_of_le ho] at hsum
  exact hsum

end Text

/-! ### Lines of a marked text -/

/-- The line breaks of a marked text are those of the text, with any plain text behind it. -/
theorem breakCount_markFrom {mark tail : Text} {places : List Nat}
    (hmark : ∀ c ∈ mark, c ≠ '\r' ∧ c ≠ '\n') (htail : ∀ c ∈ tail, c ≠ '\r' ∧ c ≠ '\n')
    (t : Text) (i : Nat) (h : ∀ k, i + k ∈ places → t[k]? ≠ some '\n') :
    breakCount (Text.markFrom mark places i t ++ tail) = breakCount t := by
  have hplain : ∀ j, ∀ c ∈ (if j ∈ places then mark else []), c ≠ '\r' ∧ c ≠ '\n' := by
    intro j c hc
    split at hc
    · exact hmark c hc
    · simp at hc
  -- the marks in front of the first character do not count
  have hstep : ∀ (c : Char) (rest : Text) (i : Nat),
      breakCount (Text.markFrom mark places i (c :: rest) ++ tail) =
        breakCount (c :: (Text.markFrom mark places (i + 1) rest ++ tail)) := by
    intro c rest i
    rw [Text.markFrom, List.append_assoc, breakCount_append (hplain i), List.cons_append]
  -- no line feed comes to the front that was not there
  have hhead : ∀ (rest : Text) (i : Nat), rest.head? ≠ some '\n' →
      (Text.markFrom mark places i rest ++ tail).head? ≠ some '\n' := by
    intro rest i hrest hfeed
    cases rest with
    | nil => exact (htail '\n' (List.mem_of_head? hfeed)).2 rfl
    | cons c rest =>
      rw [Text.markFrom] at hfeed
      cases hm : (if i ∈ places then mark else []) with
      | nil =>
        rw [hm] at hfeed
        exact hrest hfeed
      | cons d ds =>
        rw [hm] at hfeed
        have hd := hplain i d (by rw [hm]; exact List.mem_cons_self)
        exact hd.2 (Option.some.inj hfeed)
  have hnext : ∀ (c : Char) (rest : Text) (i : Nat),
      (∀ k, i + k ∈ places → (c :: rest)[k]? ≠ some '\n') →
      ∀ k, i + 1 + k ∈ places → rest[k]? ≠ some '\n' := by
    intro c rest i h k hk
    have := h (k + 1) (by rw [show i + (k + 1) = i + 1 + k from by omega]; exact hk)
    simpa using this
  generalize hn : (0 : Nat) = n
  clear hn
  -- the cases of `lineBreaks`: a carriage return with its line feed goes as one
  fun_induction lineBreaks n t generalizing i with
  | case1 n =>
    rw [Text.markFrom, List.nil_append, ← List.append_nil tail]
    exact breakCount_append htail []
  | case2 n rest ih =>
    have hfeed : i + 1 ∉ places := by
      intro hmem
      exact h 1 hmem rfl
    rw [hstep, Text.markFrom, if_neg hfeed, List.nil_append, List.cons_append, breakCount_crlf,
      breakCount_crlf, ih (i + 1 + 1) (hnext _ _ _ (hnext _ _ _ h))]
  | case3 n c rest hcrlf hc ih =>
    have hrest : c = '\r' → rest.head? ≠ some '\n' := by
      intro hr hfeed
      obtain ⟨rest', rfl⟩ := List.head?_eq_some_iff.1 hfeed
      exact hcrlf rest' hr rfl
    rw [hstep, breakCount_cons (fun hr => hhead rest (i + 1) (hrest hr)), breakCount_cons hrest,
      ih (i + 1) (hnext _ _ _ h)]
  | case4 n c rest hcrlf hc ih =>
    have hplain : c = '\r' → ∀ x : Option Char, x ≠ some '\n' := by
      intro hr
      exact absurd (Or.inl hr) hc
    rw [hstep, breakCount_cons (fun hr => hplain hr _), breakCount_cons (fun hr => hplain hr _),
      ih (i + 1) (hnext _ _ _ h)]

/-- **A mark keeps the lines**, unless it comes to stand before a line feed. -/
theorem lineCount_insertAt {mark : Text} {places : List Nat} (t : Text)
    (hmark : ∀ c ∈ mark, c ≠ '\r' ∧ c ≠ '\n') (h : ∀ p ∈ places, t[p]? ≠ some '\n') :
    (PositionIndex.ofText (t.insertAt mark places)).lineCount =
      (PositionIndex.ofText t).lineCount := by
  have htail : ∀ c ∈ (if t.length ∈ places then mark else []), c ≠ '\r' ∧ c ≠ '\n' := by
    intro c hc
    split at hc
    · exact hmark c hc
    · simp at hc
  rw [lineCount_ofText, lineCount_ofText, Text.insertAt, breakCount_markFrom hmark htail]
  intro k hk
  exact h k (by rw [Nat.zero_add] at hk; exact hk)

end TreeLint
