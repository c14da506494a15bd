import TreeLint.Proofs.Rule.FolderImport

/-!
# Fixing a text only inserts

With the built-in rules, the edits of an analysis are those of the rule about imports
(`result_analyze_builtIn`), and each of them puts `./` before a path that starts with `../`
(`DotsPaths`). Such edits can be applied together whenever no two of them meet. For the tree that
a parser gives for the text (`Node.WellFormed`) this is so at any depth, because the quoted paths
of imports do not overlap (`Node.WellFormed.pairwise_sources`).

The main statement is `fix_inserts`: fixing comes to a result, which is the text with `./` put in
where the edits start.
-/

namespace TreeLint

/-! ### Trees of a text -/

/-- What a parser promises about its tree of a text: spans lie in the text and are nested, and a
string holds no import. -/
structure Node.WellFormed (text : Text) (root : Node) : Prop where
  inBounds : ∀ n ∈ root.walk,
    0 ≤ n.label.startByte ∧ n.label.startByte ≤ n.label.endByte ∧
      n.label.endByte ≤ Text.byteLength text
  nested : root.Nested
  noImportInString : ∀ n ∈ root.walk, n.kind = "string" →
    ∀ d ∈ n.descendants [], d.kind ≠ "import_statement"

instance (text : Text) (root : Node) : Decidable (root.WellFormed text) :=
  decidable_of_iff
    ((∀ n ∈ root.preorder,
        0 ≤ n.label.startByte ∧ n.label.startByte ≤ n.label.endByte ∧
          n.label.endByte ≤ Text.byteLength text) ∧
      root.Nested ∧
      ∀ n ∈ root.preorder, n.kind = "string" →
        ∀ d ∈ Node.preorders n.children, d.kind ≠ "import_statement") (by
    simp only [← Node.walk_eq_preorder, ← Node.visit_eq_preorders]
    exact ⟨fun h => ⟨h.1, h.2.1, h.2.2⟩,
      fun h => ⟨h.inBounds, h.nested, h.noImportInString⟩⟩)

/-- The quoted paths of imports do not overlap. -/
theorem Node.WellFormed.pairwise_sources {text : Text} {root : Node} (h : root.WellFormed text) :
    (root.walk.filterMap FolderImport.source?).Pairwise Node.Disjoint := by
  refine h.nested.pairwise_picked (fun n c => FolderImport.child_of_source?) ?_
  intro n hn c hc d hd
  have hstring := FolderImport.kind_of_source? hc
  apply FolderImport.source?_eq_none
  have hcroot : c ∈ root.walk :=
    Node.mem_walk_of_child hn (FolderImport.child_of_source? hc)
  -- the string itself is no import, and there is none below it
  have hbelow := h.noImportInString c hcroot hstring
  rw [Node.descendants_eq_flatMap] at hbelow
  cases c with
  | mk l cs =>
    rw [Node.walk_mk, List.mem_cons] at hd
    rcases hd with rfl | hd
    · rw [hstring]
      decide
    · exact hbelow d hd

/-! ### Edits that dot a path -/

/-- Edits that lie in a text at a distance from each other, each of them putting `./` before a
path that starts with `../`. -/
structure DotsPaths (text : Text) (edits : List Edit) : Prop where
  fits : ∀ e ∈ edits, e.fits text.length = true
  apart : edits.Pairwise Edit.Apart
  newText_eq : ∀ e ∈ edits, e.newText = "./".toList ++ text.slice e.start.toNat e.stop.toNat
  dotted : ∀ e ∈ edits, "../".toList <+: text.slice e.start.toNat e.stop.toNat

namespace DotsPaths

variable {text : Text} {edits : List Edit}

theorem nil (text : Text) : DotsPaths text [] := by
  constructor <;> simp

theorem rewrites {s : Source} {root : Node} (o : Options) (h : root.WellFormed s.text) :
    DotsPaths s.text (FolderImport.rewrites s o root) where
  fits := FolderImport.rewrites_fit
  apart := FolderImport.rewrites_apart h.pairwise_sources
  newText_eq e he := by
    obtain ⟨c, _, hc⟩ := FolderImport.exists_of_mem_rewrites he
    exact hc.newText_eq
  dotted e he := by
    obtain ⟨c, _, hc⟩ := FolderImport.exists_of_mem_rewrites he
    exact hc.dotted

theorem start_lt_stop (h : DotsPaths text edits) : ∀ e ∈ edits, e.start < e.stop := by
  intro e he
  have hlen := (h.dotted e he).length_le
  have hfit := Edit.fits_iff.1 (h.fits e he)
  rw [Text.length_slice] at hlen
  have hthree : "../".toList.length = 3 := rfl
  omega

/-- What follows the start of an edit. -/
theorem prefix_drop (h : DotsPaths text edits) :
    ∀ e ∈ edits, "../".toList <+: text.drop e.start.toNat := by
  intro e he
  have hlt := h.start_lt_stop e he
  rw [Text.drop_eq_slice_append text (show e.start.toNat ≤ e.stop.toNat by omega)]
  exact (h.dotted e he).trans (List.prefix_append _ _)

/-- No two edits start at the same place. -/
theorem nodup_starts (h : DotsPaths text edits) : (Edit.starts edits).Nodup := by
  rw [Edit.starts, List.Nodup, List.pairwise_map]
  refine h.apart.imp_of_mem ?_
  intro a b ha hb hab
  have hafit := Edit.fits_iff.1 (h.fits a ha)
  have hbfit := Edit.fits_iff.1 (h.fits b hb)
  rcases hab with hab | hba <;> omega

/-- **Such edits can be applied together**, and all they do is to put in `./`. -/
theorem applyAll_eq (h : DotsPaths text edits) :
    Edit.applyAll text edits = .ok (text.insertAt "./".toList (Edit.starts edits)) :=
  Edit.applyAll_eq_insertAt h.fits h.apart h.newText_eq h.start_lt_stop

/-- The lines stay, because no edit starts at a line feed. -/
theorem lineCount_eq (h : DotsPaths text edits) :
    (PositionIndex.ofText (text.insertAt "./".toList (Edit.starts edits))).lineCount =
      (PositionIndex.ofText text).lineCount := by
  apply lineCount_insertAt
  · intro c hc
    have hmark : c = '.' ∨ c = '/' := by simpa using hc
    rcases hmark with rfl | rfl <;> decide
  · intro p hp
    obtain ⟨e, he, rfl⟩ := Edit.mem_starts.1 hp
    obtain ⟨rest, hrest⟩ := h.prefix_drop e he
    have hhead : text[e.start.toNat]? = some '.' := by
      rw [← List.head?_drop, ← hrest]
      rfl
    rw [hhead]
    decide

end DotsPaths

/-! ### Fixing with the built-in rules -/

theorem Frontend.accept_congr {f f' : Frontend} (h : f'.rejectsErrors = f.rejectsErrors)
    (answer : ParserAnswer) : f'.accept answer = f.accept answer := by
  unfold accept
  rw [h]

/-- A tree is accepted or not whatever parsers are ready. -/
theorem Frontend.parse_tree (f : Frontend) (kind : FileKind) (t : SyntaxTree) :
    (f.parse kind (.tree t)).1 = f.accept (.tree t) ∧
      (f.parse kind (.tree t)).2.rejectsErrors = f.rejectsErrors := by
  have hready : ∃ f' : Frontend, f.prepare kind (.tree t) = .ok f' ∧
      f'.rejectsErrors = f.rejectsErrors := by
    unfold prepare
    split
    · exact ⟨f, rfl, rfl⟩
    · exact ⟨_, rfl, rfl⟩
  obtain ⟨f', hf', hsame⟩ := hready
  simp only [parse, hf']
  exact ⟨accept_congr hsame _, hsame⟩

theorem Frontend.eq_of_parse_rooted {f : Frontend} {kind : FileKind} {root r : Node}
    (h : (f.parse kind (.tree (.rooted root))).1 = .ok r) : r = root := by
  rw [(f.parse_tree kind _).1, accept] at h
  split at h
  · cases h
  · cases h
    rfl

namespace Engine

/-- The engine of the built-in rules. -/
def builtIn (frontend : Frontend) : Engine where
  registry := Registry.builtIn
  frontend := frontend

variable {c : Config} {name : Option String} {kind : FileKind}

/-- **The edits of the built-in rules.** An analysis comes to a result, and its edits are those of
the rule about imports. -/
theorem result_analyze_builtIn (hc : c.WellTyped) (frontend : Frontend) (text : Text)
    (hk : FileKind.ofName name = .ok kind) (answer : ParserAnswer) :
    ∃ a, ((builtIn frontend).analyze c text name answer).1.result = .ok a ∧
      a.edits =
        match (frontend.parse kind answer).1 with
        | .error _ => []
        | .ok root =>
          (c.kept kind (sourceOf kind text root) FolderImport.rule).filterMap Output.edit? := by
  have hrules : (builtIn frontend).registry.rules = builtInRules := Registry.rules_builtIn
  have hfrontend : (builtIn frontend).frontend = frontend := rfl
  rw [result_analyze hc _ text hk, hfrontend]
  cases (frontend.parse kind answer).1 with
  | error e => exact ⟨{}, rfl, rfl⟩
  | ok root =>
    simp only [hrules, any_strays_builtIn]
    refine ⟨_, rfl, ?_⟩
    rw [Config.edits_collect, edits_builtIn]

/-- The edits for a tree are those of all its paths, or none at all. -/
theorem edits_of_analyze_builtIn (hc : c.WellTyped) {frontend : Frontend} {text : Text}
    (hk : FileKind.ofName name = .ok kind) {root : Node} {a : Analysis}
    (ha : ((builtIn frontend).analyze c text name (.tree (.rooted root))).1.result = .ok a) :
    a.edits = [] ∨
      a.edits = FolderImport.rewrites (sourceOf kind text root)
        (c.optionsFor FolderImport.rule.id) root := by
  obtain ⟨b, hb, hedits⟩ := result_analyze_builtIn hc frontend text hk (.tree (.rooted root))
  rw [ha] at hb
  cases hb
  rw [hedits]
  cases hp : (frontend.parse kind (.tree (.rooted root))).1 with
  | error e => exact Or.inl rfl
  | ok r =>
    have hr := Frontend.eq_of_parse_rooted hp
    subst hr
    simp only [Config.kept]
    split
    · exact FolderImport.edits_visit rfl
    · exact Or.inl rfl

/-- Fixing applies the edits of an analysis. -/
theorem result_fix {e : Engine} {text : Text} {answer : ParserAnswer} {a : Analysis}
    (h : (e.analyze c text name answer).1.result = .ok a) :
    (e.fix c text name answer).1.result = applyEdits text a :=
  Attempt.result_bind_ok h _

theorem result_fix_of_dotsPaths {e : Engine} {text : Text} {answer : ParserAnswer} {a : Analysis}
    (h : (e.analyze c text name answer).1.result = .ok a) (hdots : DotsPaths text a.edits) :
    (e.fix c text name answer).1.result =
      .ok (text.insertAt "./".toList (Edit.starts a.edits)) := by
  rw [result_fix h, applyEdits, hdots.applyAll_eq]
  rfl

/-- The edits for a tree of the text put `./` before paths. -/
theorem dotsPaths_of_analyze_builtIn (hc : c.WellTyped) {frontend : Frontend} {text : Text}
    (hk : FileKind.ofName name = .ok kind) {root : Node} (h : root.WellFormed text) {a : Analysis}
    (ha : ((builtIn frontend).analyze c text name (.tree (.rooted root))).1.result = .ok a) :
    DotsPaths text a.edits := by
  rcases edits_of_analyze_builtIn hc hk ha with hedits | hedits
  · rw [hedits]
    exact DotsPaths.nil text
  · rw [hedits]
    exact DotsPaths.rewrites (s := sourceOf kind text root) _ h

/-- **Fixing succeeds and only inserts.** For every text with a tree of its own, the built-in
rules fix the text by putting `./` in at the start of each edit of the analysis and nothing else:
the starts are distinct, `../` follows each of them, and the number of lines stays. -/
theorem fix_inserts (hc : c.WellTyped) (frontend : Frontend) (text : Text)
    (hk : FileKind.ofName name = .ok kind) {root : Node} (h : root.WellFormed text) :
    ∃ (a : Analysis) (fixed : Text),
      ((builtIn frontend).analyze c text name (.tree (.rooted root))).1.result = .ok a ∧
      ((builtIn frontend).fix c text name (.tree (.rooted root))).1.result = .ok fixed ∧
      fixed = text.insertAt "./".toList (Edit.starts a.edits) ∧
      (Edit.starts a.edits).Nodup ∧
      (∀ e ∈ a.edits, 0 ≤ e.start ∧ "../".toList <+: text.drop e.start.toNat) ∧
      (PositionIndex.ofText fixed).lineCount = (PositionIndex.ofText text).lineCount := by
  obtain ⟨a, ha, _⟩ := result_analyze_builtIn hc frontend text hk (.tree (.rooted root))
  have hdots := dotsPaths_of_analyze_builtIn hc hk h ha
  refine ⟨a, _, ha, result_fix_of_dotsPaths ha hdots, rfl, hdots.nodup_starts, ?_,
    hdots.lineCount_eq⟩
  intro e he
  exact ⟨(Edit.fits_iff.1 (hdots.fits e he)).1, hdots.prefix_drop e he⟩

/-- Two imports on two lines, the first of them with characters of two bytes. -/
def importText : Text := "import é from \"../é\";\r\nimport \"../b\";".toList

/-- The tree of these imports. -/
def importRoot : Node :=
  .mk { kind := "program", named := true, startByte := 0, endByte := 39 }
    [.mk { kind := "import_statement", named := true, startByte := 0, endByte := 23 }
      [.mk { kind := "string", named := true, startByte := 15, endByte := 22,
             field := some "source" } []],
      .mk { kind := "import_statement", named := true, startByte := 25, endByte := 39 }
        [.mk { kind := "string", named := true, startByte := 32, endByte := 38,
               field := some "source" } []]]

theorem importRoot_wellFormed : importRoot.WellFormed importText := by decide

theorem edits_importText {a : Analysis}
    (ha : ((builtIn {}).analyze {} importText (some "ts") (.tree (.rooted importRoot))).1.result =
      .ok a) :
    a.edits = [⟨15, 19, "./../é".toList, "imports.folder_path"⟩,
      ⟨31, 35, "./../b".toList, "imports.folder_path"⟩] := by
  have hc : Config.WellTyped {} := ⟨rfl, rfl, rfl, rfl, rfl⟩
  have hk : FileKind.ofName (some "ts") = .ok .ts := rfl
  have hroot : (({} : Frontend).parse .ts (.tree (.rooted importRoot))).1 = .ok importRoot := rfl
  have hselected : Config.selects {} .ts FolderImport.rule = true :=
    Config.selects_default rfl
  obtain ⟨b, hb, hedits⟩ := result_analyze_builtIn hc {} importText hk (.tree (.rooted importRoot))
  rw [ha] at hb
  cases hb
  rw [hroot] at hedits
  simp only [Config.kept, if_pos hselected, Config.visitOf] at hedits
  rw [hedits, FolderImport.visit_eq rfl, Node.walk_eq_preorder]
  decide

/-- The imports when both paths are dotted. -/
def dottedImportText : Text := "import é from \"./../é\";\r\nimport \"./../b\";".toList

/-- Both paths are dotted, and the carriage return keeps its line feed. -/
theorem importText_fixed :
    ((builtIn {}).fix {} importText (some "ts") (.tree (.rooted importRoot))).1.result =
      .ok dottedImportText ∧
    (PositionIndex.ofText dottedImportText).lineCount =
      (PositionIndex.ofText importText).lineCount := by
  have hc : Config.WellTyped {} := ⟨rfl, rfl, rfl, rfl, rfl⟩
  have hk : FileKind.ofName (some "ts") = .ok .ts := rfl
  obtain ⟨a, fixed, ha, hfix, hfixed, -, -, hlines⟩ :=
    fix_inserts hc {} importText hk importRoot_wellFormed
  have htext : fixed = dottedImportText := by
    rw [hfixed, edits_importText ha]
    decide
  rw [← htext]
  exact ⟨hfix, hlines⟩

end Engine

end TreeLint
