import Mathlib.Data.List.Pairwise
import TreeLint.Proofs.Engine.Fix

/-!
# Fixing twice

A fixed text has a tree of its own. It is taken to be the tree of the text before, with each
start and each end moved behind the marks that were put in before it (`Edit.movedByte`). Then a
second pass finds nothing to do:

* `startOf_moved`, `stopOf_moved` — a node of the moved tree has the moved offsets
  (`Text.moved`) of the node that it comes from;
* `pathOf_moved` — between its quotes stands the path of before, with `./` in front of it if it
  was rewritten;
* `rewrites_moved` — so no path is rewritten again, since one with `./` in front is not, and all
  others were left alone before.

The main statement is `fix_idempotent`.
-/

namespace TreeLint

/-! ### Moved bytes -/

/-- Where a byte of a text comes to stand when two bytes are put in at the start of each edit. -/
def Edit.movedByte (text : Text) (edits : List Edit) (b : Int) : Int :=
  b + 2 * edits.countP fun e =>
    decide (((PositionIndex.ofText text).byteOfOffset e.start : Int) < b)

namespace DotsPaths

variable {text : Text} {edits : List Edit}

/-- The byte of an offset moves to the byte of the moved offset. -/
theorem movedByte_eq (h : DotsPaths text edits) {o : Nat} (ho : o ≤ text.length) :
    Edit.movedByte text edits (Text.byteLength (text.take o)) =
      Text.byteLength ((text.insertAt "./".toList (Edit.starts edits)).take
        (text.moved "./".toList (Edit.starts edits) o)) := by
  have hcount : edits.countP (fun e => decide (((PositionIndex.ofText text).byteOfOffset e.start :
      Int) < Text.byteLength (text.take o))) =
        (Edit.starts edits).countP (fun p => decide (p < o)) := by
    rw [Edit.starts, List.countP_map]
    apply List.countP_congr
    intro e he
    have hfit := Edit.fits_iff.1 (h.fits e he)
    have hclamp : (PositionIndex.ofText text).clamp e.start = e.start.toNat := by
      rw [PositionIndex.clamp, PositionIndex.text_ofText]
      omega
    have hlt := Text.byteLength_take_lt_iff text (i := e.start.toNat) ho
    simp only [PositionIndex.byteOfOffset_eq, hclamp, Function.comp_apply, decide_eq_true_eq]
    omega
  have htwo : Text.byteLength "./".toList = 2 := rfl
  rw [Text.byteLength_take_moved h.nodup_starts text ho, Edit.movedByte, hcount, htwo]
  push_cast
  rfl

/-- The offset of a moved byte is the moved offset. -/
theorem offsetOfByte_movedByte (h : DotsPaths text edits) {b : Int} (hb : text.IsBoundary b) :
    (PositionIndex.ofText (text.insertAt "./".toList (Edit.starts edits))).offsetOfByte
        (Edit.movedByte text edits b) =
      text.moved "./".toList (Edit.starts edits)
        ((PositionIndex.ofText text).offsetOfByte b) := by
  obtain ⟨o, ho, rfl⟩ := hb
  rw [h.movedByte_eq ho, PositionIndex.offsetOfByte_byteLength_take _ (Text.moved_le text ho),
    PositionIndex.offsetOfByte_byteLength_take text ho]

end DotsPaths

/-! ### Moved paths -/

/-- Every span of a tree starts and ends between two characters. -/
def Node.OnBoundaries (text : Text) (root : Node) : Prop :=
  ∀ n ∈ root.walk, text.IsBoundary n.label.startByte ∧ text.IsBoundary n.label.endByte

instance : Std.Symm Node.Disjoint where
  symm _ _ h := Or.symm h

namespace FolderImport

theorem source?_mapBytes (f : Int → Int) (n : Node) :
    source? (n.mapBytes f) = (source? n).map (Node.mapBytes f) := by
  rw [source?, source?, Node.kind_mapBytes]
  split
  · rw [Node.child?_mapBytes]
    cases n.child? "source" with
    | none => rfl
    | some c =>
      rw [Option.map_some, Option.filter_some, Option.filter_some, Node.kind_mapBytes]
      split <;> rfl
  · rfl

/-- The quoted paths of a moved tree are those of the tree, moved. -/
theorem sources_mapBytes (f : Int → Int) (root : Node) :
    (root.mapBytes f).walk.filterMap source? =
      (root.walk.filterMap source?).map (Node.mapBytes f) := by
  rw [Node.walk_mapBytes, List.filterMap_map, List.map_filterMap]
  congr 1
  funext n
  exact source?_mapBytes f n

variable {s : Source} {skipped : List Value} {root c : Node}

/-- An edit starts before a quoted path, behind it, or at its first character; then the path is
the one that is rewritten. -/
theorem start_beside (h : (root.walk.filterMap source?).Pairwise Node.Disjoint)
    (hc : c ∈ root.walk.filterMap source?) :
    ∀ p ∈ Edit.starts (rewritesFor s skipped root),
      p < s.startOf c ∨ s.stopOf c < p ∨
        (p = s.startOf c + 1 ∧ isRewritten skipped (pathOf s c) = true) := by
  intro p hp
  obtain ⟨e, he, rfl⟩ := Edit.mem_starts.1 hp
  obtain ⟨d, hd, hde⟩ := List.mem_filterMap.1 he
  have hr := rewrites_of_rewrite? hde
  have hlong := hr.long
  have hstart := hr.toNat_start
  by_cases hdc : d = c
  · subst hdc
    exact Or.inr (Or.inr ⟨hstart, isRewritten_of_rewrite? hde⟩)
  · rcases h.forall hd hc hdc with hle | hle
    · have := s.stopOf_le_startOf hle
      omega
    · have := s.stopOf_le_startOf hle
      omega

/-- A rewritten path has an edit at its first character. -/
theorem start_mem (hc : c ∈ root.walk.filterMap source?)
    (hr : isRewritten skipped (pathOf s c) = true) :
    s.startOf c + 1 ∈ Edit.starts (rewritesFor s skipped root) ∧
      s.startOf c + 5 ≤ s.stopOf c := by
  have hsome : ∃ e, rewrite? s skipped c = some e := by
    rw [rewrite?, if_pos hr]
    exact ⟨_, rfl⟩
  obtain ⟨e, he⟩ := hsome
  have hrewrites := rewrites_of_rewrite? he
  have hmem : e ∈ rewritesFor s skipped root := List.mem_filterMap.2 ⟨c, hc, he⟩
  exact ⟨Edit.mem_starts.2 ⟨e, hmem, hrewrites.toNat_start⟩, hrewrites.long⟩

variable {s' : Source} {edits : List Edit}

theorem startOf_moved (h : DotsPaths s.text edits)
    (hs' : s'.text = s.text.insertAt "./".toList (Edit.starts edits))
    (hc : s.text.IsBoundary c.label.startByte) :
    s'.startOf (c.mapBytes (Edit.movedByte s.text edits)) =
      s.text.moved "./".toList (Edit.starts edits) (s.startOf c) := by
  rw [Source.startOf, Source.startOf, s.index_eq, s'.index_eq, hs', Node.label_mapBytes]
  exact h.offsetOfByte_movedByte hc

theorem stopOf_moved (h : DotsPaths s.text edits)
    (hs' : s'.text = s.text.insertAt "./".toList (Edit.starts edits))
    (hc : s.text.IsBoundary c.label.endByte) :
    s'.stopOf (c.mapBytes (Edit.movedByte s.text edits)) =
      s.text.moved "./".toList (Edit.starts edits) (s.stopOf c) := by
  rw [Source.stopOf, Source.stopOf, s.index_eq, s'.index_eq, hs', Node.label_mapBytes]
  exact h.offsetOfByte_movedByte hc

/-- **A path of the fixed text** is the path of before, with `./` in front of it if it was
rewritten. -/
theorem pathOf_moved (h : root.WellFormed s.text) (hb : root.OnBoundaries s.text)
    (hdots : DotsPaths s.text (rewritesFor s skipped root))
    (hs' : s'.text =
      s.text.insertAt "./".toList (Edit.starts (rewritesFor s skipped root)))
    (hc : c ∈ root.walk.filterMap source?) :
    pathOf s' (c.mapBytes (Edit.movedByte s.text (rewritesFor s skipped root))) =
      if isRewritten skipped (pathOf s c) then "./".toList ++ pathOf s c else pathOf s c := by
  have hcroot : c ∈ root.walk :=
    Node.Nested.mem_walk_of_picked (fun n d => child_of_source?) hc
  obtain ⟨hstart, hstop⟩ := hb c hcroot
  rw [pathOf, startOf_moved hdots hs' hstart, stopOf_moved hdots hs' hstop, hs']
  apply Text.slice_quoted_moved
  · exact s.startOf_le_stopOf (h.inBounds c hcroot).2.1
  · exact s.stopOf_le c
  · exact start_beside h.pairwise_sources hc
  · intro hr
    obtain ⟨hmem, hlong⟩ := start_mem hc hr
    exact ⟨hmem, by omega⟩

/-- **No path is rewritten twice.** -/
theorem rewritesFor_moved (h : root.WellFormed s.text) (hb : root.OnBoundaries s.text)
    (hdots : DotsPaths s.text (rewritesFor s skipped root))
    (hs' : s'.text =
      s.text.insertAt "./".toList (Edit.starts (rewritesFor s skipped root))) :
    rewritesFor s' skipped
      (root.mapBytes (Edit.movedByte s.text (rewritesFor s skipped root))) = [] := by
  rw [rewritesFor, sources_mapBytes, List.filterMap_map, List.filterMap_eq_nil_iff]
  intro c hc
  have hpath := pathOf_moved h hb hdots hs' hc
  rw [Function.comp_apply, rewrite?, hpath, if_neg]
  split
  · rw [isRewritten_dotted]
    exact Bool.false_ne_true
  · assumption

/-- The same for the suffixes that options stand for. -/
theorem rewrites_moved {o : Options} (h : root.WellFormed s.text) (hb : root.OnBoundaries s.text)
    (hs' : s'.text = s.text.insertAt "./".toList (Edit.starts (rewrites s o root))) :
    rewrites s' o (root.mapBytes (Edit.movedByte s.text (rewrites s o root))) = [] := by
  have hdots : DotsPaths s.text (rewrites s o root) := DotsPaths.rewrites o h
  unfold rewrites at hs' hdots ⊢
  cases hsuf : suffixes (Options.get o "skip_suffixes" defaultSuffixes) with
  | error e => rfl
  | ok skipped =>
    simp only [hsuf] at hs' hdots ⊢
    exact rewritesFor_moved h hb hdots hs'

end FolderImport

/-! ### The second pass -/

namespace Engine

variable {c : Config} {name : Option String} {kind : FileKind}

theorem analyze_snd (hc : c.WellTyped) (e : Engine) (text : Text)
    (hk : FileKind.ofName name = .ok kind) (answer : ParserAnswer) :
    (e.analyze c text name answer).2 =
      { e with frontend := (e.frontend.parse kind answer).2 } := by
  unfold analyze
  simp only [hk, rulesFor_eq hc]
  split <;> rfl

/-- The engine that is left after fixing analyzes every text as the engine did before. -/
theorem result_analyze_after_fix (hc : c.WellTyped) (frontend : Frontend) (text text' : Text)
    (hk : FileKind.ofName name = .ok kind) (tree tree' : SyntaxTree) :
    (((builtIn frontend).fix c text name (.tree tree)).2.analyze c text' name
        (.tree tree')).1.result =
      ((builtIn frontend).analyze c text' name (.tree tree')).1.result := by
  have hafter : ((builtIn frontend).fix c text name (.tree tree)).2 =
      builtIn (frontend.parse kind (.tree tree)).2 := analyze_snd hc _ text hk _
  have hsame : ((frontend.parse kind (.tree tree)).2.parse kind (.tree tree')).1 =
      (frontend.parse kind (.tree tree')).1 := by
    rw [(Frontend.parse_tree _ kind tree').1, (Frontend.parse_tree _ kind tree').1]
    exact Frontend.accept_congr (Frontend.parse_tree _ kind tree).2 _
  rw [hafter, result_analyze hc _ text' hk, result_analyze hc _ text' hk]
  simp only [builtIn, hsame]
  rfl

theorem result_fix_of_no_edits {e : Engine} {text : Text} {answer : ParserAnswer} {a : Analysis}
    (h : (e.analyze c text name answer).1.result = .ok a) (hedits : a.edits = []) :
    (e.fix c text name answer).1.result = .ok text := by
  rw [result_fix h, applyEdits, hedits, Edit.applyAll_nil]
  rfl

/-- **Fixing is idempotent.** A text is fixed, and its tree moved behind the marks that were put
in. Then an analysis of the fixed text with this tree proposes no edit, and fixing it again gives
it back as it is. -/
theorem fix_idempotent (hc : c.WellTyped) (frontend : Frontend) (text : Text)
    (hk : FileKind.ofName name = .ok kind) {root : Node} (h : root.WellFormed text)
    (hb : root.OnBoundaries text) :
    ∃ (a a' : Analysis) (fixed : Text),
      ((builtIn frontend).analyze c text name (.tree (.rooted root))).1.result = .ok a ∧
      ((builtIn frontend).fix c text name (.tree (.rooted root))).1.result = .ok fixed ∧
      let after := ((builtIn frontend).fix c text name (.tree (.rooted root))).2
      let root' := root.mapBytes (Edit.movedByte text a.edits)
      (after.analyze c fixed name (.tree (.rooted root'))).1.result = .ok a' ∧
      a'.edits = [] ∧
      (after.fix c fixed name (.tree (.rooted root'))).1.result = .ok fixed := by
  obtain ⟨a, ha, _⟩ := result_analyze_builtIn hc frontend text hk (.tree (.rooted root))
  have hdots := dotsPaths_of_analyze_builtIn hc hk h ha
  have hfix := result_fix_of_dotsPaths ha hdots
  -- the second analysis, by the engine as it was
  obtain ⟨a', ha', _⟩ := result_analyze_builtIn hc frontend
    (text.insertAt "./".toList (Edit.starts a.edits)) hk
    (.tree (.rooted (root.mapBytes (Edit.movedByte text a.edits))))
  have hnone : a'.edits = [] := by
    rcases edits_of_analyze_builtIn hc hk ha with hedits | hedits
    · -- nothing was edited: the second analysis is the first
      have hroot : root.mapBytes (Edit.movedByte text []) = root :=
        Node.mapBytes_eq_self Int.add_zero root
      rw [hedits, hroot, Edit.starts, List.map_nil, Text.insertAt_nil, ha] at ha'
      cases ha'
      exact hedits
    · rcases edits_of_analyze_builtIn hc hk ha' with hedits' | hedits'
      · exact hedits'
      · rw [hedits', hedits]
        exact FolderImport.rewrites_moved (s := sourceOf kind text root) h hb rfl
  have hagain := (result_analyze_after_fix hc frontend text _ hk (.rooted root) _).trans ha'
  exact ⟨a, a', _, ha, hfix, hagain, hnone, result_fix_of_no_edits hagain hnone⟩

/-- The tree of the imports when both paths are dotted. -/
def dottedImportRoot : Node :=
  .mk { kind := "program", named := true, startByte := 0, endByte := 43 }
    [.mk { kind := "import_statement", named := true, startByte := 0, endByte := 25 }
      [.mk { kind := "string", named := true, startByte := 15, endByte := 24,
             field := some "source" } []],
      .mk { kind := "import_statement", named := true, startByte := 27, endByte := 43 }
        [.mk { kind := "string", named := true, startByte := 34, endByte := 42,
               field := some "source" } []]]

/-- The dotted paths are left alone. -/
theorem dottedImportText_fixed :
    ∃ a', (((builtIn {}).fix {} importText (some "ts") (.tree (.rooted importRoot))).2.analyze {}
        dottedImportText (some "ts") (.tree (.rooted dottedImportRoot))).1.result = .ok a' ∧
      a'.edits = [] ∧
      (((builtIn {}).fix {} importText (some "ts") (.tree (.rooted importRoot))).2.fix {}
        dottedImportText (some "ts") (.tree (.rooted dottedImportRoot))).1.result =
          .ok dottedImportText := by
  have hc : Config.WellTyped {} := ⟨rfl, rfl, rfl, rfl, rfl⟩
  have hk : FileKind.ofName (some "ts") = .ok .ts := rfl
  have hb : importRoot.OnBoundaries importText := by
    rw [Node.OnBoundaries, Node.walk_eq_preorder]
    decide
  obtain ⟨a, a', fixed, ha, hfix, hagain, hnone, hsame⟩ :=
    fix_idempotent hc {} importText hk importRoot_wellFormed hb
  have hdots := dotsPaths_of_analyze_builtIn hc hk importRoot_wellFormed ha
  have htext : fixed = dottedImportText := by
    rw [result_fix_of_dotsPaths ha hdots, edits_importText ha] at hfix
    cases hfix
    decide
  have hroot : importRoot.mapBytes (Edit.movedByte importText a.edits) = dottedImportRoot := by
    rw [edits_importText ha]
    rfl
  rw [htext, hroot] at hagain hsame
  exact ⟨a', hagain, hnone, hsame⟩

end Engine

end TreeLint
