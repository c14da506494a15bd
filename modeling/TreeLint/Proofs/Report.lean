import Mathlib.Data.List.Forall2
import TreeLint.Proofs.Position.Lines
import TreeLint.Report

/-!
# Reports show what was found

A report lists the outputs of an analysis, class by class, each with its offsets and with a range
in lines and columns. For outputs that lie in the text

* no range has errors (`rangeErrors_lineRange`), and its lines and columns say the same as the
  offsets: the start comes no later than the end, the two are the same only for an empty range,
  and the last line is a line of the text (`rangeShows_lineRange`);
* a report can always be given, and shows all outputs in their order (`ofAnalysis_of_fits`).
-/

namespace TreeLint

/-! ### Fields of objects -/

theorem Value.find?_object (fields : List (String × Value)) (name : String) :
    (Value.object fields).find? name = fields.lookup name := by
  show Entries.get? (.str name) (fields.map fun f => (Scalar.str f.1, f.2)) = fields.lookup name
  induction fields with
  | nil => rfl
  | cons f fields ih =>
    rw [List.map_cons, Entries.get?, ih, List.lookup_cons, Scalar.sameKey_str]
    by_cases h : f.1 = name
    · simp [h]
    · have hne : (name == f.1) = false := by simpa using Ne.symm h
      simp [h, hne]

/-- Everything that an analysis holds, class by class. -/
def Analysis.outputs (a : Analysis) : List Output :=
  a.diagnostics.map .diagnostic ++ a.highlights.map .highlight ++ a.edits.map .edit

theorem Output.fits_iff {n : Nat} {o : Output} :
    o.fits n = true ↔ 0 ≤ o.start ∧ o.start ≤ o.stop ∧ o.stop ≤ n := by
  simp [fits]

namespace Report

/-! ### Ranges in lines and columns -/

/-- A range in lines and columns is valid and says the same as two offsets of a text. -/
structure RangeShows (t : Text) (start stop : Int) (range : Entries) : Prop where
  valid : rangeErrors range = []
  numbers : ∃ startLine startCol endLine endCol : Nat,
    Entries.get? (.str "startLine") range = some (nat startLine) ∧
    Entries.get? (.str "startCol") range = some (nat startCol) ∧
    Entries.get? (.str "endLine") range = some (nat endLine) ∧
    Entries.get? (.str "endCol") range = some (nat endCol) ∧
    (startLine < endLine ∨ startLine = endLine ∧ startCol ≤ endCol) ∧
    ((startLine, startCol) = (endLine, endCol) ↔ start = stop) ∧
    endLine < (PositionIndex.ofText t).lineCount

/-- An item of a report shows an output on a text. -/
structure Shows (t : Text) (o : Output) (item : Value) : Prop where
  start_eq : item.find? "start" = some (.int o.start)
  stop_eq : item.find? "end" = some (.int o.stop)
  range : ∃ es, item.find? "range" = some (.map es) ∧ RangeShows t o.start o.stop es

/-- The items of a report, class by class. -/
def items (report : Value) : List Value :=
  ["diagnostics", "highlights", "edits"].flatMap fun key =>
    match report.find? key with
    | some (.list xs) => xs
    | _ => []

/-- Four counts under the keys of a range are a valid range. -/
theorem rangeErrors_counts (a b c d : Nat) :
    rangeErrors [(.str "startLine", nat a), (.str "startCol", nat b), (.str "endLine", nat c),
      (.str "endCol", nat d)] = [] := by
  have hcount : ∀ n : Nat, isCount (nat n) = true := by
    intro n
    simp [isCount, nat, Value.int]
  have hextra : extraKeys [(.str "startLine", nat a), (.str "startCol", nat b),
      (.str "endLine", nat c), (.str "endCol", nat d)] = [] := by
    simp [extraKeys, rangeKeys, Value.str?]
  simp [rangeErrors, hextra, rangeKeys, keyError?, Entries.get?, Scalar.sameKey_str, hcount]

theorem rangeShows_lineRange {t : Text} {r : OffsetRange} (h : r.stop ≤ t.length) :
    ∃ es, lineRange (.ofText t) r = .map es ∧ RangeShows t r.start r.stop es := by
  refine ⟨_, rfl, rangeErrors_counts _ _ _ _, ?_⟩
  have hstart : r.start ≤ t.length := Nat.le_trans r.start_le_stop h
  refine ⟨((PositionIndex.ofText t).lineColumn r.start).1,
    ((PositionIndex.ofText t).lineColumn r.start).2,
    ((PositionIndex.ofText t).lineColumn r.stop).1,
    ((PositionIndex.ofText t).lineColumn r.stop).2, rfl, rfl, rfl, rfl, ?_, ?_,
    PositionIndex.line_lt_lineCount t r.stop⟩
  · rcases Nat.eq_or_lt_of_le r.start_le_stop with heq | hlt
    · rw [heq]
      exact Or.inr ⟨rfl, Nat.le_refl _⟩
    · have hbefore := PositionIndex.isBefore_lineColumn t hlt h
      unfold PositionIndex.IsBefore at hbefore
      omega
  · show (PositionIndex.ofText t).lineColumn r.start = (PositionIndex.ofText t).lineColumn r.stop ↔
      (r.start : Int) = r.stop
    rw [PositionIndex.lineColumn_inj t hstart h]
    omega

/-! ### Items -/

variable {t : Text}

/-- An item with the offsets of a range and their lines and columns shows what has that range. -/
theorem shows_of_range {o : Output} {r : OffsetRange} {item : Value} (h : r.stop ≤ t.length)
    (hstart : o.start = r.start) (hstop : o.stop = r.stop)
    (hfirst : item.find? "start" = some (nat r.start))
    (hlast : item.find? "end" = some (nat r.stop))
    (hrange : item.find? "range" = some (lineRange (.ofText t) r)) : Shows t o item := by
  obtain ⟨es, hes, hshows⟩ := rangeShows_lineRange h
  rw [← hstart, ← hstop] at hshows
  refine ⟨?_, ?_, es, ?_, hshows⟩
  · rw [hfirst, hstart]
    rfl
  · rw [hlast, hstop]
    rfl
  · rw [hrange, hes]

theorem shows_diagnostic {d : Diagnostic} (h : d.range.stop ≤ t.length) :
    Shows t (.diagnostic d) (diagnostic (.ofText t) d) :=
  shows_of_range h rfl rfl (Value.find?_object _ _) (Value.find?_object _ _)
    (Value.find?_object _ _)

theorem shows_highlight {m : Highlight} (h : m.range.stop ≤ t.length) :
    Shows t (.highlight m) (highlight (.ofText t) m) :=
  shows_of_range h rfl rfl (Value.find?_object _ _) (Value.find?_object _ _)
    (Value.find?_object _ _)

/-- An edit that lies in the text can be shown. -/
theorem shows_edit {e : Edit} (h : Output.fits t.length (.edit e) = true) :
    ∃ item, edit (.ofText t) e = .ok item ∧ Shows t (.edit e) item := by
  obtain ⟨hnonneg, hle, hlen⟩ : 0 ≤ e.start ∧ e.start ≤ e.stop ∧ e.stop ≤ t.length :=
    Output.fits_iff.1 h
  obtain ⟨r, hr⟩ : ∃ r, OffsetRange.of e.start e.stop = .ok r := by
    rw [OffsetRange.of, dif_pos ⟨hnonneg, hle⟩]
    exact ⟨_, rfl⟩
  obtain ⟨hstart, hstop⟩ := OffsetRange.of_ok_iff.1 hr
  have hitem : edit (.ofText t) e = .ok (.object [("rule_id", .str e.ruleId),
      ("start", nat r.start), ("end", nat r.stop),
      ("new_text", .str (String.ofList e.newText)), ("range", lineRange (.ofText t) r)]) := by
    rw [edit, hr, ← hstart, ← hstop]
    rfl
  exact ⟨_, hitem, shows_of_range (by omega) hstart.symm hstop.symm (Value.find?_object _ _)
    (Value.find?_object _ _) (Value.find?_object _ _)⟩

theorem mapM_shows_edits {edits : List Edit}
    (h : ∀ e ∈ edits, Output.fits t.length (.edit e) = true) :
    ∃ shown, edits.mapM (edit (.ofText t)) = .ok shown ∧
      List.Forall₂ (Shows t) (edits.map .edit) shown := by
  induction edits with
  | nil => exact ⟨[], rfl, .nil⟩
  | cons e edits ih =>
    obtain ⟨item, hitem, hshows⟩ := shows_edit (h e List.mem_cons_self)
    obtain ⟨shown, hshown, hrest⟩ := ih fun x hx => h x (List.mem_cons_of_mem _ hx)
    refine ⟨item :: shown, ?_, .cons hshows hrest⟩
    rw [List.mapM_cons, hitem, hshown]
    rfl

/-! ### Whole reports -/

theorem items_object (d h e : List Value) :
    items (.object [("tvcheck.protocol", .str protocolVersion),
      ("engine_version", .str engineVersion), ("diagnostics", .list d), ("highlights", .list h),
      ("edits", .list e)]) = d ++ h ++ e := by
  simp only [items, List.flatMap_cons, List.flatMap_nil, Value.find?_object, List.append_nil,
    List.append_assoc]
  rfl

/-- **Outputs that lie in a text can be reported**, and the report shows them all. -/
theorem ofAnalysis_of_fits {a : Analysis} (h : ∀ o ∈ a.outputs, o.fits t.length = true) :
    ∃ report, ofAnalysis (.ofText t) a = .ok report ∧
      List.Forall₂ (Shows t) a.outputs (items report) := by
  simp only [Analysis.outputs, List.mem_append, List.mem_map] at h
  have hdiagnostics : List.Forall₂ (Shows t) (a.diagnostics.map .diagnostic)
      (a.diagnostics.map (diagnostic (.ofText t))) := by
    rw [List.forall₂_map_left_iff, List.forall₂_map_right_iff, List.forall₂_same]
    intro d hd
    have hfits := Output.fits_iff.1 (h _ (Or.inl (Or.inl ⟨d, hd, rfl⟩)))
    exact shows_diagnostic (Int.ofNat_le.1 hfits.2.2)
  have hhighlights : List.Forall₂ (Shows t) (a.highlights.map .highlight)
      (a.highlights.map (highlight (.ofText t))) := by
    rw [List.forall₂_map_left_iff, List.forall₂_map_right_iff, List.forall₂_same]
    intro m hm
    have hfits := Output.fits_iff.1 (h _ (Or.inl (Or.inr ⟨m, hm, rfl⟩)))
    exact shows_highlight (Int.ofNat_le.1 hfits.2.2)
  obtain ⟨shown, hshown, hedits⟩ := mapM_shows_edits fun e he =>
    h _ (Or.inr ⟨e, he, rfl⟩)
  have hreport : ofAnalysis (.ofText t) a = .ok (.object [
      ("tvcheck.protocol", .str protocolVersion), ("engine_version", .str engineVersion),
      ("diagnostics", .list (a.diagnostics.map (diagnostic (.ofText t)))),
      ("highlights", .list (a.highlights.map (highlight (.ofText t)))),
      ("edits", .list shown)]) := by
    rw [ofAnalysis, hshown]
    rfl
  refine ⟨_, hreport, ?_⟩
  rw [items_object]
  exact List.rel_append (List.rel_append hdiagnostics hhighlights) hedits

end Report

end TreeLint
