import TreeLint.Proofs.Engine.Idempotence
import TreeLint.Proofs.Rule.ImportVisit

/-!
# Imports after they are rewritten

The edits of the rule about imports put `./` before some paths, and the tree of the new text is
taken to be the old tree with its bytes moved behind what was put in. A second visit then reports
files once more. What it reports is said path by path, in terms of the first visit
(`FolderImport.Rewritten`):

* offsets move by two for each edit before them (`Edit.movedOffset`), and within the quotes of a
  path they move together (`movedOffset_quoted`), so that the diagnostic moves with its path
  (`nameRange_eq`);
* a path that was not rewritten reads as before (`finding?_of_not_rewritten`);
* a path that was rewritten has a segment more, and so it is reported if it has an extension and
  is not exempt (`finding?_of_rewritten`). A path of two segments was no file before and may be one
  now.

The main statement is `diagnostics_rewritten`.
-/

namespace TreeLint

/-! ### Moved offsets -/

namespace Edit

/-- Where an offset comes to stand when two characters are put in at the start of each edit. -/
def movedOffset (edits : List Edit) (o : Nat) : Nat :=
  o + 2 * (starts edits).countP fun p => decide (p < o)

theorem movedOffset_mono (edits : List Edit) {i j : Nat} (h : i ≤ j) :
    movedOffset edits i ≤ movedOffset edits j := by
  have hcount : ((starts edits).countP fun p => decide (p < i)) ≤
      (starts edits).countP fun p => decide (p < j) := by
    apply List.countP_mono_left
    intro p _ hp
    rw [decide_eq_true_eq] at hp ⊢
    omega
  rw [movedOffset, movedOffset]
  omega

/-- As many places lie before an offset as before another if none lies in between. -/
theorem countP_lt_of_beside {places : List Nat} {a b o : Nat}
    (h : ∀ p ∈ places, p < a ∨ b < p) (hao : a ≤ o) (hob : o ≤ b) :
    (places.countP fun p => decide (p < o)) = places.countP fun p => decide (p < a) := by
  apply List.countP_congr
  intro p hp
  have := h p hp
  rw [decide_eq_true_eq, decide_eq_true_eq]
  omega

/-- What stands from `a` up to `b` moves together, with two characters more behind an edit that
starts at `a + 1`. No other edit may start there. -/
theorem movedOffset_quoted {edits : List Edit} {a b o : Nat} {R : Prop} [Decidable R]
    (hnodup : (starts edits).Nodup)
    (hbeside : ∀ p ∈ starts edits, p < a ∨ b < p ∨ p = a + 1 ∧ R)
    (hmarked : R → a + 1 ∈ starts edits) (hao : a ≤ o) (hob : o ≤ b) (hbehind : R → a + 1 < o) :
    movedOffset edits o = movedOffset edits a + (o - a) + if R then 2 else 0 := by
  rw [movedOffset, movedOffset]
  by_cases hr : R
  · have hperm := List.perm_cons_erase (hmarked hr)
    have hothers : ∀ p ∈ (starts edits).erase (a + 1), p < a ∨ b < p := by
      intro p hp
      obtain ⟨hne, hmem⟩ := (List.Nodup.mem_erase_iff hnodup).1 hp
      have := hbeside p hmem
      omega
    have hlt := hbehind hr
    -- the edit at `a + 1` counts behind it and does not count before
    rw [hperm.countP_eq, hperm.countP_eq, List.countP_cons, List.countP_cons,
      countP_lt_of_beside hothers hao hob, if_pos hr, if_pos (by simpa using hlt), if_neg (by simp)]
    omega
  · have hothers : ∀ p ∈ starts edits, p < a ∨ b < p := by
      intro p hp
      rcases hbeside p hp with hlt | hlt | ⟨_, hr'⟩
      · exact Or.inl hlt
      · exact Or.inr hlt
      · exact absurd hr' hr
    rw [countP_lt_of_beside hothers hao hob, if_neg hr]
    omega

end Edit

/-- Where only `./` is put in, a text moves as its offsets do. -/
theorem DotsPaths.moved_eq {text : Text} {edits : List Edit} (h : DotsPaths text edits) {o : Nat}
    (ho : o ≤ text.length) :
    text.moved "./".toList (Edit.starts edits) o = Edit.movedOffset edits o :=
  Text.moved_eq h.nodup_starts text ho

/-- A range with both ends moved behind what edits put in. -/
def OffsetRange.movedBehind (edits : List Edit) (r : OffsetRange) : OffsetRange :=
  ⟨Edit.movedOffset edits r.start, Edit.movedOffset edits r.stop,
    Edit.movedOffset_mono edits r.start_le_stop⟩

/-- A diagnostic moved behind what edits put in. -/
def Diagnostic.movedBehind (edits : List Edit) (d : Diagnostic) : Diagnostic :=
  { d with range := d.range.movedBehind edits }

namespace FolderImport

variable {s s' : Source} {ts : List String} {root c : Node} {o : Options}

/-! ### Diagnostics and edits by path -/

/-- The diagnostic of a quoted path, if it has one. -/
def finding? (s : Source) (ts : List String) (c : Node) : Option Diagnostic :=
  if ¬HasSuffix ts (pathOf s c) ∧ NamesFile (pathOf s c) then
    some ⟨nameRange s c, message (pathOf s c), info.id, info.defaultSeverity⟩
  else none

theorem finding?_eq_some {d : Diagnostic} :
    finding? s ts c = some d ↔ (¬HasSuffix ts (pathOf s c) ∧ NamesFile (pathOf s c)) ∧
      ⟨nameRange s c, message (pathOf s c), info.id, info.defaultSeverity⟩ = d := by
  rw [finding?, Option.ite_none_right_eq_some, Option.some.injEq]

theorem finding?_eq_none :
    finding? s ts c = none ↔ ¬(¬HasSuffix ts (pathOf s c) ∧ NamesFile (pathOf s c)) := by
  rw [finding?, ite_eq_right_iff]
  simp only [reduceCtorEq, imp_false]

/-- A path that leads up is rewritten unless it has a suffix that is skipped. -/
def IsRewritten (ts : List String) (path : Text) : Prop :=
  "../".toList <+: path ∧ ¬HasSuffix ts path

instance (ts : List String) : DecidablePred (IsRewritten ts) :=
  fun _ => inferInstanceAs (Decidable (_ ∧ _))

theorem isRewritten_iff {path : Text} :
    isRewritten (ts.map Value.str) path = true ↔ IsRewritten ts path := by
  rw [isRewritten, isSkipped_eq, Bool.and_eq_true, List.isPrefixOf_iff_prefix, IsRewritten]
  simp [Except.toOption]

theorem rewrite?_eq (s : Source) (ts : List String) (c : Node) :
    rewrite? s (ts.map Value.str) c =
      if IsRewritten ts (pathOf s c) then some (dotEdit s c) else none := by
  simp only [rewrite?, isRewritten_iff, dotEdit]

theorem rewritesFor_eq (s : Source) (ts : List String) (root : Node) :
    rewritesFor s (ts.map Value.str) root =
      ((root.walk.filterMap source?).filter fun c => IsRewritten ts (pathOf s c)).map
        (dotEdit s) := by
  rw [rewritesFor, ← List.filterMap_eq_filter, List.map_filterMap]
  congr 1
  funext c
  rw [rewrite?_eq, Option.guard, apply_ite (Option.map (dotEdit s))]
  simp only [decide_eq_true_eq, Option.map_some, Option.map_none]

theorem filterMap_diagnostic_reported (s : Source) (ts : List String) (c : Node) :
    (reported s ts c).filterMap Output.diagnostic? = (finding? s ts c).toList := by
  have hdots : (dotOutputs s c).filterMap Output.diagnostic? = [] := by
    rw [dotOutputs]
    split <;> rfl
  by_cases hskip : HasSuffix ts (pathOf s c)
  · rw [reported, finding?, if_pos hskip, if_neg (fun h => h.1 hskip)]
    rfl
  · rw [reported, finding?, if_neg hskip, List.filterMap_append, hdots, List.append_nil,
      fileOutputs]
    by_cases hfile : NamesFile (pathOf s c)
    · rw [if_pos hfile, if_pos ⟨hskip, hfile⟩]
      rfl
    · rw [if_neg hfile, if_neg (fun h => hfile h.2)]
      rfl

theorem filterMap_edit_reported (s : Source) (ts : List String) (c : Node) :
    (reported s ts c).filterMap Output.edit? =
      (rewrite? s (ts.map Value.str) c).toList := by
  have hfile : (fileOutputs s c).filterMap Output.edit? = [] := by
    rw [fileOutputs]
    split <;> rfl
  rw [rewrite?_eq]
  by_cases hskip : HasSuffix ts (pathOf s c)
  · rw [reported, if_pos hskip, if_neg (fun h => h.2 hskip)]
    rfl
  · rw [reported, if_neg hskip, List.filterMap_append, hfile, List.nil_append, dotOutputs]
    by_cases hdots : "../".toList <+: pathOf s c
    · rw [if_pos hdots, if_pos ⟨hdots, hskip⟩]
      rfl
    · rw [if_neg hdots, if_neg (fun h => hdots h.1)]
      rfl

/-- Quotes of two characters are never too short to be looked at. -/
theorem quotedPaths_eq (hroom : ∀ c ∈ root.walk.filterMap source?, s.startOf c + 2 ≤ s.stopOf c) :
    quotedPaths root = root.walk.filterMap source? := by
  apply List.filterMap_congr
  intro n hn
  rw [pathNode?_eq]
  cases hc : source? n with
  | none => rfl
  | some c =>
    have hlong := hroom c (List.mem_filterMap.2 ⟨n, hn, hc⟩)
    have hbytes : 2 ≤ c.label.endByte - c.label.startByte := by
      by_contra hshort
      have := s.stopOf_le_succ (n := c) (by omega)
      omega
    rw [Option.filter_some, if_pos (decide_eq_true hbytes)]

/-! ### A visit by path -/

section

variable (hroot : s.tree = some (.rooted root))
  (ho : suffixes (Options.get o "skip_suffixes" defaultSuffixes) = .ok (ts.map Value.str))
  (hroom : ∀ c ∈ root.walk.filterMap source?, s.startOf c + 2 ≤ s.stopOf c)

include hroot ho hroom

theorem visit_sources :
    rule.visit s o =
      ⟨((root.walk.filterMap source?).flatMap (reported s ts)).map .output, none⟩ := by
  have hpaths := quotedPaths_eq hroom
  rw [← hpaths] at hroom ⊢
  exact visit_eq_reported hroot ho hroom

theorem diagnostics_visit :
    (rule.visit s o).diagnostics = (root.walk.filterMap source?).filterMap (finding? s ts) := by
  rw [visit_sources hroot ho hroom, Run.diagnostics, filterMap_outputs, List.filterMap_flatMap]
  simp only [filterMap_diagnostic_reported]
  rw [← List.filterMap_eq_flatMap_toList]

theorem edits_visit_sources :
    (rule.visit s o).edits = rewritesFor s (ts.map Value.str) root := by
  rw [visit_sources hroot ho hroom, Run.edits, filterMap_outputs, List.filterMap_flatMap]
  simp only [filterMap_edit_reported]
  rw [← List.filterMap_eq_flatMap_toList, rewritesFor]

theorem dotsPaths_edits (h : root.WellFormed s.text) :
    DotsPaths s.text (rule.visit s o).edits := by
  have hall := DotsPaths.rewrites o h
  rw [rewrites, ho] at hall
  rw [edits_visit_sources hroot ho hroom]
  exact hall

end

/-! ### The second visit -/

/-- A source with a tree of its text, the edits of a visit, and a source whose text is the edited
one. -/
structure Rewritten (s s' : Source) (ts : List String) (root : Node) (edits : List Edit) :
    Prop where
  wellFormed : root.WellFormed s.text
  onBoundaries : root.OnBoundaries s.text
  room : ∀ c ∈ root.walk.filterMap source?, s.startOf c + 2 ≤ s.stopOf c
  edits_eq : edits = rewritesFor s (ts.map Value.str) root
  dots : DotsPaths s.text edits
  text_eq : s'.text = s.text.insertAt "./".toList (Edit.starts edits)

namespace Rewritten

variable {edits : List Edit}

section

variable (h : Rewritten s s' ts root edits) (hc : c ∈ root.walk.filterMap source?)

include h hc

/-- A quoted path of the tree stands in the text, its ends between two characters. -/
theorem isBoundary : s.text.IsBoundary c.label.startByte ∧ s.text.IsBoundary c.label.endByte :=
  h.onBoundaries c (Node.Nested.mem_walk_of_picked (fun _ _ => child_of_source?) hc)

theorem startOf_eq :
    s'.startOf (c.mapBytes (Edit.movedByte s.text edits)) =
      Edit.movedOffset edits (s.startOf c) := by
  have hroom := h.room c hc
  have hstop := s.stopOf_le c
  rw [startOf_moved h.dots h.text_eq (h.isBoundary hc).1, h.dots.moved_eq (by omega)]

theorem stopOf_eq :
    s'.stopOf (c.mapBytes (Edit.movedByte s.text edits)) =
      Edit.movedOffset edits (s.stopOf c) := by
  rw [stopOf_moved h.dots h.text_eq (h.isBoundary hc).2, h.dots.moved_eq (s.stopOf_le c)]

theorem pathOf_eq :
    pathOf s' (c.mapBytes (Edit.movedByte s.text edits)) =
      if IsRewritten ts (pathOf s c) then "./".toList ++ pathOf s c else pathOf s c := by
  have hdots := h.dots
  have htext := h.text_eq
  rw [h.edits_eq] at hdots htext
  rw [h.edits_eq, pathOf_moved h.wellFormed h.onBoundaries hdots htext hc]
  simp only [isRewritten_iff]

/-- Within the quotes, offsets move together. -/
theorem movedOffset_eq {i : Nat} (hstart : s.startOf c ≤ i) (hstop : i ≤ s.stopOf c)
    (hbehind : IsRewritten ts (pathOf s c) → s.startOf c + 1 < i) :
    Edit.movedOffset edits i = Edit.movedOffset edits (s.startOf c) + (i - s.startOf c) +
      if IsRewritten ts (pathOf s c) then 2 else 0 := by
  refine Edit.movedOffset_quoted h.dots.nodup_starts ?_ ?_ hstart hstop hbehind
  · intro p hp
    rw [h.edits_eq] at hp
    have hplace := start_beside h.wellFormed.pairwise_sources hc p hp
    rw [isRewritten_iff] at hplace
    exact hplace
  · intro hr
    rw [h.edits_eq]
    exact (start_mem hc (isRewritten_iff.2 hr)).1

/-- The quotes stay as far apart as they were, or move apart. -/
theorem room_moved :
    s'.startOf (c.mapBytes (Edit.movedByte s.text edits)) + 2 ≤
      s'.stopOf (c.mapBytes (Edit.movedByte s.text edits)) := by
  have hroom := h.room c hc
  have hmoved := h.movedOffset_eq hc (i := s.stopOf c) (by omega) (Nat.le_refl _) (by omega)
  rw [h.startOf_eq hc, h.stopOf_eq hc, hmoved]
  omega

/-- **The last segment moves with the offsets**, and so does the diagnostic on it. -/
theorem nameRange_eq :
    nameRange s' (c.mapBytes (Edit.movedByte s.text edits)) =
      (nameRange s c).movedBehind edits := by
  have hroom := h.room c hc
  have hlength := length_pathOf hroom
  have hlast := Text.afterLast_le '/' (pathOf s c)
  -- the last segment of a rewritten path lies behind the edit
  have hslash : IsRewritten ts (pathOf s c) → 0 < Text.afterLast '/' (pathOf s c) := by
    intro hr
    exact Text.afterLast_pos (slash_mem hr.1)
  have hmoved := h.movedOffset_eq hc (i := s.startOf c + 1 + Text.afterLast '/' (pathOf s c))
    (by omega) (by omega) (fun hr => by have := hslash hr; omega)
  have hstart : (nameRange s' (c.mapBytes (Edit.movedByte s.text edits))).start =
      Edit.movedOffset edits (nameRange s c).start := by
    rw [start_nameRange (h.room_moved hc), start_nameRange hroom, h.startOf_eq hc, h.pathOf_eq hc,
      hmoved]
    by_cases hr : IsRewritten ts (pathOf s c)
    · have htwo : "./".toList.length = 2 := rfl
      rw [if_pos hr, if_pos hr, Text.afterLast_append _ (slash_mem hr.1)]
      omega
    · rw [if_neg hr, if_neg hr]
      omega
  rw [OffsetRange.movedBehind, OffsetRange.mk.injEq]
  exact ⟨hstart, h.stopOf_eq hc⟩

/-- **A path that was not rewritten** has the diagnostic that it had. -/
theorem finding?_of_not_rewritten (hr : ¬IsRewritten ts (pathOf s c)) :
    finding? s' ts (c.mapBytes (Edit.movedByte s.text edits)) =
      (finding? s ts c).map (Diagnostic.movedBehind edits) := by
  rw [finding?, finding?, h.pathOf_eq hc, if_neg hr, h.nameRange_eq hc]
  split <;> rfl

/-- **A path that was rewritten** has a diagnostic if it has an extension and is not exempt,
unless the suffixes to skip fit what stands in front of it now. -/
theorem finding?_of_rewritten (hr : IsRewritten ts (pathOf s c)) :
    finding? s' ts (c.mapBytes (Edit.movedByte s.text edits)) =
      if ¬HasSuffix ts ("./".toList ++ pathOf s c) ∧ HasExtension (pathOf s c) ∧
          ¬IsExempt (pathOf s c) then
        some ⟨(nameRange s c).movedBehind edits, message ("./".toList ++ pathOf s c), info.id,
          info.defaultSeverity⟩
      else none := by
  rw [finding?, h.pathOf_eq hc, if_pos hr, h.nameRange_eq hc]
  simp only [namesFile_dotted_iff hr.1]

section

variable (hr : IsRewritten ts (pathOf s c)) (hsuffix : ¬HasSuffix ts ("./".toList ++ pathOf s c))

include hr hsuffix

theorem isSome_finding?_of_rewritten :
    (finding? s' ts (c.mapBytes (Edit.movedByte s.text edits))).isSome ↔
      HasExtension (pathOf s c) ∧ ¬IsExempt (pathOf s c) := by
  rw [h.finding?_of_rewritten hc hr, Option.isSome_ite, and_iff_right hsuffix]

/-- A diagnostic that was there stays. -/
theorem finding?_of_found {d : Diagnostic} (hd : finding? s ts c = some d) :
    finding? s' ts (c.mapBytes (Edit.movedByte s.text edits)) =
      some { d.movedBehind edits with message := message ("./".toList ++ pathOf s c) } := by
  obtain ⟨⟨_, hfile⟩, rfl⟩ := finding?_eq_some.1 hd
  rw [h.finding?_of_rewritten hc hr, if_pos ⟨hsuffix, hfile.extension, hfile.notExempt⟩]
  rfl

/-- A diagnostic comes up where a segment was missing. -/
theorem isSome_finding?_of_not_found (hnone : finding? s ts c = none) :
    (finding? s' ts (c.mapBytes (Edit.movedByte s.text edits))).isSome ↔
      HasExtension (pathOf s c) ∧ ¬IsExempt (pathOf s c) ∧
        ((pathOf s c).splitOn '/').length = 2 := by
  have hfile : ¬NamesFile (pathOf s c) := fun hfile => finding?_eq_none.1 hnone ⟨hr.2, hfile⟩
  have htwo := two_le_length_splitOn hr.1
  rw [namesFile_iff_of_up hr.1] at hfile
  rw [h.isSome_finding?_of_rewritten hc hr hsuffix]
  refine ⟨fun ⟨hextension, hexempt⟩ => ⟨hextension, hexempt, ?_⟩,
    fun ⟨hextension, hexempt, _⟩ => ⟨hextension, hexempt⟩⟩
  by_contra hne
  exact hfile ⟨by omega, hextension, hexempt⟩

end

end

/-- The paths of the moved tree are reported by a second visit, which comes to its end as well. -/
theorem visit_moved (h : Rewritten s s' ts root edits)
    (hroot' : s'.tree = some (.rooted (root.mapBytes (Edit.movedByte s.text edits))))
    (ho : suffixes (Options.get o "skip_suffixes" defaultSuffixes) = .ok (ts.map Value.str)) :
    (rule.visit s' o).failure = none ∧
      (rule.visit s' o).diagnostics = (root.walk.filterMap source?).filterMap fun c =>
        finding? s' ts (c.mapBytes (Edit.movedByte s.text edits)) := by
  have hsources := sources_mapBytes (Edit.movedByte s.text edits) root
  have hroom : ∀ c ∈ (root.mapBytes (Edit.movedByte s.text edits)).walk.filterMap source?,
      s'.startOf c + 2 ≤ s'.stopOf c := by
    rw [hsources, List.forall_mem_map]
    intro c hc
    exact h.room_moved hc
  rw [diagnostics_visit hroot' ho hroom, visit_sources hroot' ho hroom, hsources,
    List.filterMap_map]
  exact ⟨rfl, rfl⟩

end Rewritten

/-! ### Both visits -/

/-- **What the rewrite does to later diagnostics.** Let a tree of a text be visited, in which the
quotes of each path are two characters, let the edits be applied to the text, and let the tree
move with them. Then a second visit comes to its end and judges every path again.

* A path that was not rewritten has the diagnostic that it had, at the moved offsets, or none if
  it had none.
* A path that was rewritten, and has none of the suffixes to skip with `./` in front, has a
  diagnostic if it has an extension and is not exempt. A diagnostic that was there stays, at the
  moved offsets and with the new path in its message. One comes up for the paths of two segments
  that have an extension and are not exempt. -/
theorem diagnostics_rewritten (hroot : s.tree = some (.rooted root))
    (ho : suffixes (Options.get o "skip_suffixes" defaultSuffixes) = .ok (ts.map Value.str))
    (h : root.WellFormed s.text) (hb : root.OnBoundaries s.text)
    (hroom : ∀ c ∈ root.walk.filterMap source?, s.startOf c + 2 ≤ s.stopOf c) :
    let paths := root.walk.filterMap source?
    let edits := (rule.visit s o).edits
    let moved := Node.mapBytes (Edit.movedByte s.text edits)
    (rule.visit s o).failure = none ∧
    (rule.visit s o).diagnostics = paths.filterMap (finding? s ts) ∧
    edits = (paths.filter fun c => IsRewritten ts (pathOf s c)).map (dotEdit s) ∧
    ∃ text', Edit.applyAll s.text edits = .ok text' ∧
      ∀ s' : Source, s'.text = text' → s'.tree = some (.rooted (moved root)) →
        (rule.visit s' o).failure = none ∧
        (rule.visit s' o).diagnostics = paths.filterMap (fun c => finding? s' ts (moved c)) ∧
        ∀ c ∈ paths,
          (¬IsRewritten ts (pathOf s c) →
            finding? s' ts (moved c) = (finding? s ts c).map (Diagnostic.movedBehind edits)) ∧
          (IsRewritten ts (pathOf s c) → ¬HasSuffix ts ("./".toList ++ pathOf s c) →
            ((finding? s' ts (moved c)).isSome ↔
              HasExtension (pathOf s c) ∧ ¬IsExempt (pathOf s c)) ∧
            (∀ d, finding? s ts c = some d →
              finding? s' ts (moved c) =
                some { d.movedBehind edits with message := message ("./".toList ++ pathOf s c) }) ∧
            (finding? s ts c = none →
              ((finding? s' ts (moved c)).isSome ↔
                HasExtension (pathOf s c) ∧ ¬IsExempt (pathOf s c) ∧
                  ((pathOf s c).splitOn '/').length = 2))) := by
  intro paths edits moved
  have hedits : edits = rewritesFor s (ts.map Value.str) root := edits_visit_sources hroot ho hroom
  have hdots : DotsPaths s.text edits := dotsPaths_edits hroot ho hroom h
  refine ⟨?_, diagnostics_visit hroot ho hroom, ?_, _, hdots.applyAll_eq, ?_⟩
  · rw [visit_sources hroot ho hroom]
  · rw [hedits, rewritesFor_eq]
  · intro s' htext hroot'
    have hr : Rewritten s s' ts root edits := ⟨h, hb, hroom, hedits, hdots, htext⟩
    obtain ⟨hends, hdiagnostics⟩ := hr.visit_moved hroot' ho
    refine ⟨hends, hdiagnostics, ?_⟩
    intro c hc
    refine ⟨hr.finding?_of_not_rewritten hc, ?_⟩
    intro hup hsuffix
    exact ⟨hr.isSome_finding?_of_rewritten hc hup hsuffix,
      fun d => hr.finding?_of_found hc hup hsuffix,
      hr.isSome_finding?_of_not_found hc hup hsuffix⟩

/-- Three imports: a file of two segments, one of three segments, and one that is not rewritten. -/
def upwardImports : Node :=
  .mk { kind := "program", named := true, startByte := 0, endByte := 55 }
    [.mk { kind := "import_statement", named := true, startByte := 0, endByte := 17 }
      [.mk { kind := "string", named := true, startByte := 7, endByte := 16,
             field := some "source" } []],
      .mk { kind := "import_statement", named := true, startByte := 17, endByte := 37 }
        [.mk { kind := "string", named := true, startByte := 24, endByte := 36,
               field := some "source" } []],
      .mk { kind := "import_statement", named := true, startByte := 37, endByte := 55 }
        [.mk { kind := "string", named := true, startByte := 44, endByte := 54,
               field := some "source" } []]]

/-- The text with these imports. -/
def upwardSource : Source where
  kind := "ts"
  text := "import \"../a.ts\";import \"../a/ö.ts\";import \"./x/y.ts\";".toList
  tree := some (.rooted upwardImports)

/-- The same imports when two paths are dotted. -/
def dottedImports : Node :=
  .mk { kind := "program", named := true, startByte := 0, endByte := 59 }
    [.mk { kind := "import_statement", named := true, startByte := 0, endByte := 19 }
      [.mk { kind := "string", named := true, startByte := 7, endByte := 18,
             field := some "source" } []],
      .mk { kind := "import_statement", named := true, startByte := 19, endByte := 41 }
        [.mk { kind := "string", named := true, startByte := 26, endByte := 40,
               field := some "source" } []],
      .mk { kind := "import_statement", named := true, startByte := 41, endByte := 59 }
        [.mk { kind := "string", named := true, startByte := 48, endByte := 58,
               field := some "source" } []]]

/-- The text with the dotted paths. -/
def dottedSource : Source where
  kind := "ts"
  text := "import \"./../a.ts\";import \"./../a/ö.ts\";import \"./x/y.ts\";".toList
  tree := some (.rooted dottedImports)

theorem upwardImports_wellFormed : upwardImports.WellFormed upwardSource.text := by decide

/-- The first import has a diagnostic once it is dotted. The others had theirs before. -/
theorem upwardSource_rewritten :
    Edit.applyAll upwardSource.text (rule.visit upwardSource []).edits = .ok dottedSource.text ∧
    (rule.visit upwardSource []).diagnostics.map (fun d => (d.range.start, d.range.stop)) =
      [(30, 35), (48, 53)] ∧
    (rule.visit dottedSource []).diagnostics.map (fun d => (d.range.start, d.range.stop)) =
      [(13, 18), (34, 39), (52, 57)] := by
  have hsources : ∀ root : Node,
      root.walk.filterMap source? = root.preorder.filterMap source? := by
    intro root
    rw [Node.walk_eq_preorder]
  have hb : upwardImports.OnBoundaries upwardSource.text := by
    rw [Node.OnBoundaries, Node.walk_eq_preorder]
    decide
  have hroom : ∀ c ∈ upwardImports.walk.filterMap source?,
      upwardSource.startOf c + 2 ≤ upwardSource.stopOf c := by
    rw [hsources]
    decide
  have hsuffixes : suffixes (Options.get [] "skip_suffixes" defaultSuffixes) =
      .ok ([".scss"].map Value.str) := rfl
  obtain ⟨-, hfirst, hedits, text', happly, hsecond⟩ :=
    diagnostics_rewritten (s := upwardSource) rfl hsuffixes upwardImports_wellFormed hb hroom
  have hdotted : (rule.visit upwardSource []).edits =
      [⟨8, 15, "./../a.ts".toList, info.id⟩, ⟨25, 34, "./../a/ö.ts".toList, info.id⟩] := by
    rw [hedits, hsources]
    decide
  have htext : text' = dottedSource.text := by
    have hdots := dotsPaths_edits rfl hsuffixes hroom upwardImports_wellFormed
    rw [hdots.applyAll_eq, hdotted, Except.ok.injEq] at happly
    rw [← happly]
    decide
  rw [htext] at happly hsecond
  rw [hdotted] at hsecond
  obtain ⟨-, hagain, -⟩ := hsecond dottedSource rfl rfl
  refine ⟨happly, ?_, ?_⟩
  · rw [hfirst, hsources]
    decide
  · rw [hagain, hsources]
    decide

end FolderImport

end TreeLint
