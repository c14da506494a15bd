import TreeLint.Proofs.List.Selection
import TreeLint.Proofs.Rule.Completion
import TreeLint.Proofs.Rule.ImportPath

/-!
# What is reported of imports

A visit of the rule about imports goes through the quoted paths of a tree (`quotedPaths`), and as
long as their quotes do not overlap, it comes to its end. Each path is judged by itself: nothing is
reported if it has a suffix that is skipped, and otherwise a diagnostic if it names a file and an
edit if it leads up (`reported`).

* `check_eq_reported` — this is what the check of one node comes to;
* `slice_nameRange` — the diagnostic covers the last segment of the path and the closing quote;
* `flatMap_reported_of_subset` — with more suffixes to skip, some paths are left out as a whole and
  the others are reported as before.

The main statement is `visit_imports`.
-/

namespace TreeLint

namespace FolderImport

/-- A path ends with one of the suffixes. -/
def HasSuffix (ts : List String) (path : Text) : Prop := ∃ t ∈ ts, t.toList <:+ path

instance (ts : List String) : DecidablePred (HasSuffix ts) :=
  fun path => inferInstanceAs (Decidable (∃ t ∈ ts, t.toList <:+ path))

/-- The quoted paths of the imports of a tree, in source order. -/
def quotedPaths (root : Node) : List Node := root.walk.filterMap pathNode?

/-- The offsets from the last segment of a quoted path up to the end of the quotes. Quotes that
overlap have none between them; here they count as empty. -/
def nameRange (s : Source) (c : Node) : OffsetRange :=
  ⟨min (s.startOf c + 1 + Text.afterLast '/' (pathOf s c)) (s.stopOf c), s.stopOf c,
    Nat.min_le_right _ _⟩

/-- The diagnostic of a quoted path that names a file. -/
def fileOutputs (s : Source) (c : Node) : List Output :=
  if NamesFile (pathOf s c) then [info.diagnostic (nameRange s c) (message (pathOf s c))] else []

/-- The edit that puts `./` in front of a quoted path. -/
def dotEdit (s : Source) (c : Node) : Edit :=
  ⟨(s.startOf c + 1 : Nat), (s.stopOf c - 1 : Nat), "./".toList ++ pathOf s c, info.id⟩

/-- The edit of a quoted path that leads up. -/
def dotOutputs (s : Source) (c : Node) : List Output :=
  if "../".toList <+: pathOf s c then [.edit (dotEdit s c)] else []

/-- What is reported of a quoted path when some suffixes are skipped. -/
def reported (s : Source) (ts : List String) (c : Node) : List Output :=
  if HasSuffix ts (pathOf s c) then [] else fileOutputs s c ++ dotOutputs s c

variable {s : Source} {ts : List String} {c n root : Node}

/-! ### The check of one node -/

theorem isSkipped_eq (ts : List String) (path : Text) :
    isSkipped path (ts.map Value.str) = .ok (decide (HasSuffix ts path)) := by
  have hany : (ts.any fun t => t.toList.isSuffixOf path) = decide (HasSuffix ts path) := by
    rw [Bool.eq_iff_iff, List.any_eq_true, decide_eq_true_eq]
    simp only [List.isSuffixOf_iff_suffix, HasSuffix]
  rw [isSkipped_texts, hany]

/-- The characters between the quotes. -/
theorem length_pathOf (h : s.startOf c + 2 ≤ s.stopOf c) :
    s.startOf c + 1 + (pathOf s c).length + 1 = s.stopOf c := by
  have hstop := s.stopOf_le c
  rw [pathOf, Text.length_slice]
  omega

theorem start_nameRange (h : s.startOf c + 2 ≤ s.stopOf c) :
    (nameRange s c).start = s.startOf c + 1 + Text.afterLast '/' (pathOf s c) := by
  have hlength := length_pathOf h
  have hlast := Text.afterLast_le '/' (pathOf s c)
  exact Nat.min_eq_left (by omega)

theorem report_eq (h : s.startOf c + 2 ≤ s.stopOf c) :
    report ⟨s.startOf c + 1, s.stopOf c - 1, Nat.le_sub_of_add_le h⟩ (pathOf s c) =
      fileOutputs s c ++ dotOutputs s c := by
  have hlength := length_pathOf h
  have hlast := Text.afterLast_le '/' (pathOf s c)
  have hrange : nameRange s c =
      ⟨s.startOf c + 1 + Text.afterLast '/' (pathOf s c),
        s.startOf c + 1 + (pathOf s c).length + 1, by omega⟩ := by
    rw [OffsetRange.mk.injEq]
    exact ⟨start_nameRange h, hlength.symm⟩
  rw [fileOutputs, dotOutputs, dotEdit, hrange]
  simp only [report, namesFile_iff, List.isPrefixOf_iff_prefix]

theorem check_eq_reported (h : ∀ c, pathNode? n = some c → s.startOf c + 2 ≤ s.stopOf c) :
    check s (ts.map Value.str) n = .ok ((pathNode? n).toList.flatMap (reported s ts)) := by
  cases hn : pathNode? n with
  | none =>
    simp only [check, hn]
    rfl
  | some c =>
    have hroom := h c hn
    rw [check_of_long hn hroom, isSkipped_eq, report_eq hroom, Option.toList_some,
      List.flatMap_singleton, reported]
    show Except.ok _ = _
    simp only [decide_eq_true_eq]

/-! ### Where the diagnostic stands -/

/-- A path stands between two characters, its quotes. -/
theorem exists_quotes (h : s.startOf c + 2 ≤ s.stopOf c) :
    ∃ opening closing : Char, s.textOf c = .ok (opening :: (pathOf s c ++ [closing])) ∧
      s.text.slice (s.stopOf c - 1) (s.stopOf c) = [closing] := by
  have hstop := s.stopOf_le c
  have hfirst : s.startOf c < s.text.length := by omega
  have hlast : s.stopOf c - 1 < s.text.length := by omega
  have hopening : s.text.slice (s.startOf c) (s.startOf c + 1) = [s.text[s.startOf c]] := by
    rw [Text.slice_succ, List.getElem?_eq_getElem hfirst, Option.toList_some]
  have hclosing : s.text.slice (s.stopOf c - 1) (s.stopOf c) = [s.text[s.stopOf c - 1]] := by
    have hsucc := Text.slice_succ s.text (s.stopOf c - 1)
    rw [show s.stopOf c - 1 + 1 = s.stopOf c by omega, List.getElem?_eq_getElem hlast,
      Option.toList_some] at hsucc
    exact hsucc
  refine ⟨s.text[s.startOf c], s.text[s.stopOf c - 1], ?_, hclosing⟩
  rw [Source.textOf_eq (by omega), Except.ok.injEq, ← List.singleton_append, ← hopening, ← hclosing,
    pathOf, Text.slice_append_of_le _ (by omega) (by omega),
    Text.slice_append_of_le _ (by omega) (by omega)]

/-- **The diagnostic covers the last segment of a path and what stands behind the path.** -/
theorem slice_nameRange (h : s.startOf c + 2 ≤ s.stopOf c) :
    (nameRange s c).slice s.text =
      Text.lastSegment '/' (pathOf s c) ++ s.text.slice (s.stopOf c - 1) (s.stopOf c) := by
  have hlength := length_pathOf h
  have hlast := Text.afterLast_le '/' (pathOf s c)
  have hstart := start_nameRange h
  have hpiece : s.text.slice (nameRange s c).start (s.stopOf c - 1) =
      Text.lastSegment '/' (pathOf s c) := by
    rw [hstart, ← Text.drop_afterLast, pathOf, Text.slice, Text.slice, List.drop_drop]
  rw [← hpiece, Text.slice_append_of_le]
  · rfl
  · omega
  · omega

/-! ### The whole visit -/

theorem visit_eq_reported (hroot : s.tree = some (.rooted root)) {o : Options}
    (ho : suffixes (Options.get o "skip_suffixes" defaultSuffixes) = .ok (ts.map Value.str))
    (hroom : ∀ c ∈ quotedPaths root, s.startOf c + 2 ≤ s.stopOf c) :
    rule.visit s o = ⟨((quotedPaths root).flatMap (reported s ts)).map .output, none⟩ := by
  have hchecks : ∀ n ∈ root.walk,
      check s (ts.map Value.str) n = .ok ((pathNode? n).toList.flatMap (reported s ts)) := by
    intro n hn
    apply check_eq_reported
    intro c hc
    exact hroom c (List.mem_filterMap.2 ⟨n, hn, hc⟩)
  rw [visit_eq hroot, ho]
  simp only [Run.each_eq_flatMap hchecks]
  rw [quotedPaths, List.filterMap_eq_flatMap_toList, List.flatMap_assoc]
  rfl

/-- With more suffixes to skip, the paths that have one of them are left out. -/
theorem flatMap_reported_of_subset {ts' : List String} (h : ts ⊆ ts') (paths : List Node) :
    paths.flatMap (reported s ts') =
      (paths.filter fun c => ¬HasSuffix ts' (pathOf s c)).flatMap (reported s ts) := by
  refine (flatMap_filter_eq ?_ ?_).symm
  · intro c _ hkept
    have hnew : ¬HasSuffix ts' (pathOf s c) := by simpa using hkept
    have hold : ¬HasSuffix ts (pathOf s c) := fun ⟨t, ht, hend⟩ => hnew ⟨t, h ht, hend⟩
    rw [reported, reported, if_neg hnew, if_neg hold]
  · intro c _ hskipped
    have hnew : HasSuffix ts' (pathOf s c) := by simpa using hskipped
    rw [reported, if_pos hnew]

/-- **What is reported of imports.** Let the quotes of every quoted path of an import be two
characters, and let some suffixes be skipped.

* The visit comes to its end. It reports, path by path in source order, nothing if the path has
  one of the suffixes, and otherwise a diagnostic if the path names a file and an edit if it starts
  with `../`.
* The diagnostic ends with the quotes and covers the last segment of the path and the closing
  quote. The edit replaces the path by itself with `./` in front.
* With more suffixes to skip, some paths are left out, and all that is reported of the others stays
  as it was. -/
theorem visit_imports (hroot : s.tree = some (.rooted root)) {o : Options}
    (ho : suffixes (Options.get o "skip_suffixes" defaultSuffixes) = .ok (ts.map Value.str))
    (hroom : ∀ c ∈ quotedPaths root, s.startOf c + 2 ≤ s.stopOf c) :
    rule.visit s o =
      ⟨((quotedPaths root).flatMap fun c =>
        if HasSuffix ts (pathOf s c) then []
        else
          (if NamesFile (pathOf s c) then
            [info.diagnostic (nameRange s c) (message (pathOf s c))]
          else []) ++
          if "../".toList <+: pathOf s c then
            [.edit ⟨(s.startOf c + 1 : Nat), (s.stopOf c - 1 : Nat), "./".toList ++ pathOf s c,
              info.id⟩]
          else []).map .output, none⟩ ∧
    (∀ c ∈ quotedPaths root, ∃ opening closing : Char,
      s.textOf c = .ok (opening :: (pathOf s c ++ [closing])) ∧
      (nameRange s c).stop = s.stopOf c ∧
      (nameRange s c).slice s.text = Text.lastSegment '/' (pathOf s c) ++ [closing] ∧
      s.text.slice (s.startOf c + 1) (s.stopOf c - 1) = pathOf s c) ∧
    ∀ (ts' : List String) (o' : Options),
      suffixes (Options.get o' "skip_suffixes" defaultSuffixes) = .ok (ts'.map Value.str) →
      ts ⊆ ts' →
      rule.visit s o' =
        ⟨(((quotedPaths root).filter fun c => ¬HasSuffix ts' (pathOf s c)).flatMap
          (reported s ts)).map .output, none⟩ := by
  refine ⟨visit_eq_reported hroot ho hroom, ?_, ?_⟩
  · intro c hc
    obtain ⟨opening, closing, htext, hclosing⟩ := exists_quotes (hroom c hc)
    have hslice := slice_nameRange (hroom c hc)
    rw [hclosing] at hslice
    exact ⟨opening, closing, htext, rfl, hslice, rfl⟩
  · intro ts' o' ho' hsub
    rw [visit_eq_reported hroot ho' hroom, flatMap_reported_of_subset hsub]

/-- The quoted path of the first import. -/
def parentPath : Node :=
  .mk { kind := "string", named := true, startByte := 15, endByte := 27, field := some "source" } []

/-- The quoted path of the second one. -/
def styleSheet : Node :=
  .mk { kind := "string", named := true, startByte := 35, endByte := 45, field := some "source" } []

/-- Two imports, the first of them with characters of two bytes before its path and in it. -/
def mixedImports : Node :=
  .mk { kind := "program", named := true, startByte := 0, endByte := 46 }
    [.mk { kind := "import_statement", named := true, startByte := 0, endByte := 28 } [parentPath],
      .mk { kind := "import_statement", named := true, startByte := 28, endByte := 46 }
        [styleSheet]]

/-- The text with this tree. -/
def mixedSource : Source where
  kind := "ts"
  text := "import é from \"../a/ö.ts\";import \"./b.scss\";".toList
  tree := some (.rooted mixedImports)

/-- The first import is reported and rewritten, the style sheet is skipped. When paths that end
in `ts` are skipped as well, nothing is left. -/
theorem mixedSource_reported :
    rule.visit mixedSource [] =
      ⟨[.output (info.diagnostic ⟨20, 25, by decide⟩ (message "../a/ö.ts".toList)),
        .output (.edit ⟨15, 24, "./../a/ö.ts".toList, info.id⟩)], none⟩ ∧
    (nameRange mixedSource parentPath).slice mixedSource.text = "ö.ts\"".toList ∧
    rule.visit mixedSource [(.str "skip_suffixes", .list [.str "ts", .str ".scss"])] =
      ⟨[], none⟩ := by
  have hpaths : quotedPaths mixedImports = [parentPath, styleSheet] := by
    rw [quotedPaths, Node.walk_eq_preorder]
    rfl
  have hroom : ∀ c ∈ quotedPaths mixedImports,
      mixedSource.startOf c + 2 ≤ mixedSource.stopOf c := by
    rw [hpaths]
    decide
  have hsuffixes : suffixes (Options.get [] "skip_suffixes" defaultSuffixes) =
      .ok ([".scss"].map Value.str) := rfl
  obtain ⟨hvisit, hquotes, hmore⟩ := visit_imports (s := mixedSource) rfl hsuffixes hroom
  refine ⟨?_, ?_, ?_⟩
  · rw [hvisit, hpaths]
    rfl
  · have hparent : parentPath ∈ quotedPaths mixedImports := by
      rw [hpaths]
      exact List.mem_cons_self
    obtain ⟨opening, closing, htext, -, hslice, -⟩ := hquotes parentPath hparent
    have hclosing : closing = '"' := by
      have hread : mixedSource.textOf parentPath = .ok "\"../a/ö.ts\"".toList := by decide
      rw [hread, Except.ok.injEq] at htext
      have hlast := congrArg List.getLast? htext
      rw [← List.cons_append, List.getLast?_concat] at hlast
      exact (Option.some.inj hlast).symm
    rw [hslice, hclosing]
    decide
  · rw [hmore ["ts", ".scss"] _ rfl (by decide), hpaths]
    rfl

end FolderImport

end TreeLint
