import TreeLint.Proofs.Config.Codec
import TreeLint.Proofs.Config.Normal
import TreeLint.Proofs.Disk
import TreeLint.Proofs.Engine.Independence
import TreeLint.Proofs.Position.Encoding
import TreeLint.Proofs.Rule.ReorderedOptions

/-!
# Saving and loading

A configuration is saved as a document and loaded from one. If the library between them is
faithful, what is loaded is a completed configuration with the same data (`result_load_of_save`).
It need not be the saved one: options that were not given have their default values now, unknown
severities are gone, and mappings may list their entries in another order.

An analysis shows nothing of the defaults, as the built-in rules take the same values for options
that are not given, and nothing of the severities, as unknown ones never counted
(`findings_completed`). It shows the order of entries only in the stem of handler names, which is
read as a whole, so it is for other stems (`Config.OrderFree`) that the two find the same
(`findings_of_sameData`). A configuration that was itself loaded comes back as it was.

The main statement is `save_then_load`.
-/

namespace TreeLint

namespace Config

open Attempt

variable {c c' : Config}

/-! ### What completing keeps -/

theorem WellTyped.optionsFor_eq (hc : c.WellTyped) (id : String) :
    c.optionsFor id = optionsAt c.optionEntries (.str id) := by
  obtain ⟨hmap, hmaps⟩ := eq_map_optionEntries hc.ruleConfigs
  rw [optionsFor, options, hmap, optionsAt]
  cases hfound : Entries.get? (.str id) c.optionEntries with
  | none =>
    simp only [hfound]
    rfl
  | some v =>
    obtain ⟨k, hmem, -⟩ := Entries.exists_key_of_get? hfound
    obtain ⟨o, ho⟩ := Value.eq_map_of_isMapping (hmaps _ hmem)
    cases ho
    simp only [hfound]
    rfl

theorem WellTyped.completed (hc : c.WellTyped) : c.completed.WellTyped where
  enabledRules := hc.enabledRules
  rejectSyntaxErrors := hc.rejectSyntaxErrors
  highlightDiagnostics := hc.highlightDiagnostics
  ruleSeverities := rfl
  ruleConfigs := by
    show Value.isMappingOfMappings (.map _) = true
    rw [Value.isMappingOfMappings, List.all_eq_true]
    intro e he
    rcases Entries.mem_update he with ⟨x, hx, hvalue⟩ | hmem
    · obtain ⟨y, -, rfl⟩ := List.mem_map.1 hx
      rw [← hvalue]
      rfl
    · exact mappings_defaultOptions e hmem

/-- The options that the rules read are the same before and after. -/
theorem agree_completed (hc : c.WellTyped) (h : c.optionEntries.Nested) (id : String) :
    (default.optionsFor id).Agree (c.completed.optionsFor id) (c.optionsFor id) := by
  have hdefault : default.WellTyped := ⟨rfl, rfl, rfl, rfl, by decide⟩
  intro p hp
  have hoptions : default.optionsFor id = optionsAt defaultOptions (.str id) :=
    hdefault.optionsFor_eq id
  rw [hoptions] at hp
  obtain ⟨name, hname⟩ := names_optionsAt_default (.str id) p hp
  have hfound : Entries.get? (.str name) (optionsAt defaultOptions (.str id)) = some p.2 := by
    rw [(distinct_optionsAt nested_defaultOptions _).get?_str_eq_some, ← hname]
    exact hp
  have hcompleted : optionsAt c.completed.optionEntries (.str id) =
      (optionsAt defaultOptions (.str id)).update (optionsAt c.optionEntries (.str id)) :=
    optionsAt_update_overlaid h.distinct (.str id)
  rw [hc.completed.optionsFor_eq, hc.optionsFor_eq, hcompleted, hname,
    Entries.get?_str_update _ (distinct_optionsAt h _), hfound]
  cases Entries.get? (.str name) (optionsAt c.optionEntries (.str id)) <;> rfl

/-- The known severities are the same before and after. -/
theorem severityFor_completed (hc : c.WellTyped) (h : c.severityEntries.Distinct) (rule : Rule) :
    c.completed.severityFor rule = c.severityFor rule := by
  have hknown : Entries.Distinct
      (c.severityEntries.filter fun e => (severityOf? e.2).isSome) := List.Pairwise.filter _ h
  have hlookup : (Entries.get? (.str rule.id) (Entries.update []
        (c.severityEntries.filter fun e => (severityOf? e.2).isSome))).bind severityOf? =
      (Entries.get? (.str rule.id) c.severityEntries).bind severityOf? := by
    rw [Entries.get?_str_update _ hknown, Entries.get?_nil, Option.or_none]
    ext severity
    simp only [Option.bind_eq_some_iff, hknown.get?_str_eq_some, h.get?_str_eq_some,
      List.mem_filter]
    constructor
    · rintro ⟨v, ⟨hmem, -⟩, hv⟩
      exact ⟨v, hmem, hv⟩
    · rintro ⟨v, hmem, hv⟩
      exact ⟨v, ⟨hmem, by rw [hv]; rfl⟩, hv⟩
  rw [severityFor_eq, severityFor_eq, eq_map_severityEntries hc.ruleSeverities]
  exact congrArg (fun s => (s.map Severity.name).getD rule.info.defaultSeverity) hlookup

/-! ### What other orders keep -/

theorem SameData.severityEntries (h : c.SameData c') (hc : c.WellTyped) :
    c'.ruleSeverities = .map c'.severityEntries ∧
      c.severityEntries.Reorders Value.Reordered c'.severityEntries := by
  have hdata := h .ruleSeverities
  simp only [get, eq_map_severityEntries hc.ruleSeverities] at hdata
  obtain ⟨es', hes', hreorders⟩ := hdata.map_left
  rw [Config.severityEntries, hes']
  exact ⟨rfl, hreorders⟩

theorem SameData.optionEntries (h : c.SameData c') (hc : c.WellTyped) :
    c'.ruleConfigs = .map c'.optionEntries ∧
      c.optionEntries.Reorders Value.Reordered c'.optionEntries := by
  have hdata := h .ruleConfigs
  simp only [get, (eq_map_optionEntries hc.ruleConfigs).1] at hdata
  obtain ⟨es', hes', hreorders⟩ := hdata.map_left
  rw [Config.optionEntries, hes']
  exact ⟨rfl, hreorders⟩

/-- The flags and patterns of the same data are equal. -/
theorem SameData.plain_eq (h : c.SameData c') (hc : c.WellTyped) :
    c'.enabledRules = c.enabledRules ∧ c'.rejectSyntaxErrors = c.rejectSyntaxErrors ∧
      c'.highlightDiagnostics = c.highlightDiagnostics :=
  ⟨h.get_eq .enabledRules (rigid_of_isStringList hc.enabledRules),
    h.get_eq .rejectSyntaxErrors (rigid_of_isFlag hc.rejectSyntaxErrors),
    h.get_eq .highlightDiagnostics (rigid_of_isFlag hc.highlightDiagnostics)⟩

theorem WellTyped.of_sameData (hc : c.WellTyped) (hnested : c.optionEntries.Nested)
    (h : c.SameData c') : c'.WellTyped := by
  obtain ⟨hrules, hreject, hhighlight⟩ := h.plain_eq hc
  obtain ⟨hseverities, -⟩ := h.severityEntries hc
  obtain ⟨hconfigs, hreorders⟩ := h.optionEntries hc
  refine ⟨hrules ▸ hc.enabledRules, hreject ▸ hc.rejectSyntaxErrors,
    hhighlight ▸ hc.highlightDiagnostics, hseverities ▸ rfl, ?_⟩
  rw [hconfigs, Value.isMappingOfMappings, List.all_eq_true]
  intro e he
  obtain ⟨o, ho, -⟩ := (hnested.of_reorders hreorders).inner e he
  rw [ho]
  rfl

/-- The stem of handler names holds no mapping of two entries, so there is no order in it. -/
def OrderFree (c : Config) : Prop := (HandlerName.given (c.optionsFor HandlerName.rule.id)).Rigid

theorem SameData.optionsFor (h : c.SameData c') (hc : c.WellTyped) (hc' : c'.WellTyped)
    (hnested : c.optionEntries.Nested) (id : String) :
    (c.optionsFor id).Reordered (c'.optionsFor id) := by
  intro name
  rw [hc.optionsFor_eq, hc'.optionsFor_eq]
  exact get?_optionsAt_of_reorders hnested (h.optionEntries hc).2 id name

/-- **The order of entries shows in an analysis only through the options.** -/
theorem findings_of_sameData (hc : c.WellTyped) (hnested : c.optionEntries.Nested)
    (hdistinct : c.severityEntries.Distinct) (hfree : c.OrderFree) (h : c.SameData c')
    (kind : FileKind) (text : Text) (answer : ParserAnswer) :
    c'.findings kind text answer = c.findings kind text answer := by
  have hc' := hc.of_sameData hnested h
  obtain ⟨hrules, hreject, hhighlight⟩ := h.plain_eq hc
  apply findings_congr hc' hc hrules hreject hhighlight
  · intro rule hrule s n
    exact (kept_eq_of_reordered hrule (h.optionsFor hc hc' hnested rule.id)
      (fun hid => hid ▸ hfree) s n).symm
  · intro rule _
    obtain ⟨hseverities, hreorders⟩ := h.severityEntries hc
    have hrel := hreorders.get?_str hdistinct rule.id
    have hlookup : (Entries.get? (.str rule.id) c'.severityEntries).bind severityOf? =
        (Entries.get? (.str rule.id) c.severityEntries).bind severityOf? := by
      generalize Entries.get? (.str rule.id) c.severityEntries = old at hrel
      generalize Entries.get? (.str rule.id) c'.severityEntries = new at hrel
      cases hrel with
      | none => rfl
      | some hvalue => exact (severityOf?_eq_of_reordered hvalue).symm
    rw [severityFor_eq, severityFor_eq, hseverities, eq_map_severityEntries hc.ruleSeverities]
    exact congrArg (fun s => (s.map Severity.name).getD rule.info.defaultSeverity) hlookup

/-- **Completing a configuration does not show in an analysis.** -/
theorem findings_completed (hc : c.WellTyped) (hnested : c.optionEntries.Nested)
    (hdistinct : c.severityEntries.Distinct) (kind : FileKind) (text : Text)
    (answer : ParserAnswer) :
    c.completed.findings kind text answer = c.findings kind text answer :=
  findings_congr hc.completed hc rfl rfl rfl
    (fun rule hrule s n => congrArg (Run.kept n)
      (reads_builtIn rule hrule s _ _ (agree_completed hc hnested rule.id)))
    (fun rule _ => severityFor_completed hc hdistinct rule) kind text answer

/-! ### The saved document -/

theorem exists_of_reordered_document {v : Value} (h : c.document.Reordered v) :
    ∃ (c' : Config) (es : Entries), v = .map es ∧ es.Perm c'.toEntries ∧ c.SameData c' := by
  obtain ⟨es, rfl, mid, hmid, hperm⟩ := h.map_left
  simp only [toEntries, Setting.all, List.map_cons, List.map_nil, List.forall₂_cons_left_iff,
    List.forall₂_nil_left_iff] at hmid
  obtain ⟨⟨k₁, v₁⟩, -, ⟨rfl, h₁⟩, ⟨⟨k₂, v₂⟩, -, ⟨rfl, h₂⟩, ⟨⟨k₃, v₃⟩, -, ⟨rfl, h₃⟩,
    ⟨⟨k₄, v₄⟩, -, ⟨rfl, h₄⟩, ⟨⟨k₅, v₅⟩, -, ⟨rfl, h₅⟩, rfl, rfl⟩, rfl⟩, rfl⟩, rfl⟩, rfl⟩ := hmid
  refine ⟨⟨v₁, v₂, v₃, v₄, v₅⟩, es, rfl, hperm.symm, ?_⟩
  intro x
  cases x with
  | enabledRules => exact h₁
  | rejectSyntaxErrors => exact h₂
  | highlightDiagnostics => exact h₃
  | ruleSeverities => exact h₄
  | ruleConfigs => exact h₅

variable {codec : Codec} {d d' : Disk} {path : String} {t : Text}

/-- Only what the library can write is saved. -/
theorem write_of_save (hsave : c.save codec d path = .ok d') :
    ∃ t, codec.write c.document = some t ∧ d.write path t.fileBytes = .ok d' := by
  unfold save content? at hsave
  cases hcontent : codec.write c.document with
  | none =>
    rw [hcontent] at hsave
    cases hwrite : d.write path (Text.fileBytes []) with
    | error e =>
      simp only [Option.getD_none, hwrite] at hsave
      cases hsave
    | ok saved =>
      simp only [Option.getD_none, hwrite] at hsave
      cases hsave
  | some t =>
    rw [hcontent] at hsave
    refine ⟨t, rfl, ?_⟩
    cases hwrite : d.write path t.fileBytes with
    | error e =>
      simp only [Option.getD_some, hwrite] at hsave
      cases hsave
    | ok saved =>
      simp only [Option.getD_some, hwrite] at hsave
      cases hsave
      rfl

/-- The rules of a configuration that can be shown have ids that can be told, also after they come
in another order. -/
theorem SameData.told (h : c.SameData c') (hshow : c.document.isShowable = true) :
    ∀ e ∈ c'.optionEntries, e.1.isShowable = true := by
  have hconfigs : c.ruleConfigs.isShowable = true :=
    (Value.isShowable_of_mem_entries hshow (.str Setting.ruleConfigs.name, c.get .ruleConfigs)
      (List.mem_map_of_mem (by decide))).2
  have hconfigs' : c'.ruleConfigs.isShowable = true := by
    rw [← hconfigs]
    exact ((h .ruleConfigs).allScalars_eq Scalar.isShowable).symm
  exact fun e he => (Value.isShowable_of_mem_entries hconfigs' e he).1

/-- **What is loaded from a file** that lists every setting is the completed configuration. -/
theorem result_load_of_read (hwrite : d.write path t.fileBytes = .ok d') {es : Entries}
    (hread : codec.read t.fileBytes.toList = .ok (.map es)) (hperm : es.Perm c.toEntries)
    (hc : c.Acceptable) (htold : ∀ e ∈ c.optionEntries, e.1.isShowable = true) :
    (load codec d' (some path)).result = .ok c.completed := by
  have hcontent : (ofContent codec t.fileBytes).result = .ok c.completed := by
    rw [result_ofContent hread, result_ofDocument hc htold hperm]
    rfl
  obtain ⟨p, hfind, hget⟩ := Disk.find?_of_write hwrite
  simp only [load, Option.bind_some, hfind, hget]
  rw [result_orDefault, hcontent]

/-- **What is loaded from a saved file** is a completed configuration with the same data. -/
theorem result_load_of_save (hcodec : codec.Faithful) (hsave : c.save codec d path = .ok d')
    (hacceptable : ∀ c', c.SameData c' → c'.Acceptable) :
    ∃ c', c.SameData c' ∧ (load codec d' (some path)).result = .ok c'.completed := by
  obtain ⟨t, ht, hwrite⟩ := write_of_save hsave
  obtain ⟨v, hread, hdata⟩ := hcodec.returns ht
  obtain ⟨c', es, rfl, hperm, hsame⟩ := exists_of_reordered_document hdata
  exact ⟨c', hsame, result_load_of_read hwrite hread hperm (hacceptable c' hsame)
    (hsame.told (hcodec.showable ht))⟩

theorem WellTyped.entries_of_wellKeyed (hc : c.WellTyped) (h : c.document.WellKeyed) :
    c.severityEntries.Distinct ∧ c.optionEntries.Nested := by
  have hsetting : ∀ x, (c.get x).WellKeyed := by
    intro x
    cases h with
    | map _ _ hvalues =>
      exact hvalues (.str x.name, c.get x) (List.mem_map_of_mem (by cases x <;> decide))
  have hseverities := hsetting .ruleSeverities
  have hconfigs := hsetting .ruleConfigs
  obtain ⟨hmap, hmaps⟩ := eq_map_optionEntries hc.ruleConfigs
  simp only [get, eq_map_severityEntries hc.ruleSeverities] at hseverities
  simp only [get, hmap] at hconfigs
  cases hseverities with
  | map _ hdistinct _ =>
    cases hconfigs with
    | map _ hrules hvalues =>
      refine ⟨hdistinct, hrules, ?_⟩
      intro e he
      obtain ⟨o, ho⟩ := Value.eq_map_of_isMapping (hmaps e he)
      have hoptions := hvalues e he
      rw [ho] at hoptions
      cases hoptions with
      | map _ hinner _ => exact ⟨o, ho, hinner⟩

theorem WellTyped.acceptable (hc : c.WellTyped) (h : c.optionEntries.Distinct) :
    c.Acceptable :=
  ⟨hc.enabledRules, hc.rejectSyntaxErrors, hc.highlightDiagnostics, hc.ruleSeverities,
    hc.ruleConfigs, h⟩

end Config

/-! ### Saving and loading -/

/-- Analyses and fixes show nothing of a configuration but its findings. -/
theorem Engine.results_congr {c c' : Config} (hc : c.WellTyped) (hc' : c'.WellTyped)
    (h : ∀ kind text answer, c.findings kind text answer = c'.findings kind text answer)
    (ready : List FileKind) (text : Text) (name : Option String) (answer : ParserAnswer) :
    ((builtInFor c ready).analyze c text name answer).1.result =
      ((builtInFor c' ready).analyze c' text name answer).1.result ∧
    ((builtInFor c ready).fix c text name answer).1.result =
      ((builtInFor c' ready).fix c' text name answer).1.result := by
  have hanalyze : ((builtInFor c ready).analyze c text name answer).1.result =
      ((builtInFor c' ready).analyze c' text name answer).1.result := by
    cases hk : FileKind.ofName name with
    | error err => simp only [analyze, hk]
    | ok kind =>
      rw [result_analyze_builtInFor hc ready text hk, result_analyze_builtInFor hc' ready text hk,
        h]
  have hfix : ∀ c : Config, ((builtInFor c ready).fix c text name answer).1.result =
      ((builtInFor c ready).analyze c text name answer).1.result >>= applyEdits text :=
    fun _ => Attempt.result_bind _ _
  exact ⟨hanalyze, by rw [hfix, hfix, hanalyze]⟩

namespace Config

variable {c c' : Config}

/-- The entries of a document in the order in which YAML is written. -/
def writtenEntries (c : Config) : Entries :=
  [.enabledRules, .highlightDiagnostics, .rejectSyntaxErrors, .ruleConfigs, .ruleSeverities].map
    fun x : Setting => (.str x.name, c.get x)

theorem perm_writtenEntries (c : Config) : c.writtenEntries.Perm c.toEntries :=
  List.Perm.map _ (by decide)

theorem sorted_document (c : Config) :
    c.document.sorted = .map (writtenEntries ⟨c.enabledRules.sorted, c.rejectSyntaxErrors.sorted,
      c.highlightDiagnostics.sorted, c.ruleSeverities.sorted, c.ruleConfigs.sorted⟩) := by
  simp [document, toEntries, Setting.all, get, Setting.name, Value.sorted, sortedEntries,
    writtenEntries, Entries.sorted, List.mergeSort, List.MergeSort.Internal.splitInTwo,
    Scalar.inOrder, Scalar.isText]

/-- The library for YAML writes a configuration as another one, with all mappings sorted. -/
structure WrittenAs (c c' : Config) : Prop where
  sorted : c.document.sorted = .map c'.writtenEntries
  plain : c.document.allScalars (fun s => s.isShowable && s.isPlain) = true
  showable : c.document.isShowable = true
  read : (Yaml.read ((Yaml.block 0 (.map c'.writtenEntries) ++ ['\n']).flatMap
    String.utf8EncodeChar)).toOption = some (.map c'.writtenEntries)

namespace WrittenAs

variable (h : WrittenAs c c')

include h

theorem write_eq : Yaml.write c.document = Yaml.block 0 (.map c'.writtenEntries) ++ ['\n'] := by
  rw [Yaml.write, h.sorted]
  rfl

theorem read_eq :
    Codec.yaml.checked.read (Yaml.write c.document).fileBytes.toList =
      .ok (.map c'.writtenEntries) := by
  have hbytes : (Yaml.write c.document).fileBytes.toList =
      (Yaml.block 0 (.map c'.writtenEntries) ++ ['\n']).flatMap String.utf8EncodeChar := by
    rw [Text.fileBytes, toList_toUTF8, h.write_eq]
  show Yaml.read _ = _
  rw [hbytes]
  have hread := h.read
  generalize Yaml.read _ = result at hread
  cases result with
  | error f => cases hread
  | ok v => exact congrArg _ (Option.some.inj hread)

theorem write_checked :
    Codec.yaml.checked.write c.document = some (Yaml.write c.document) := by
  rw [Codec.write_checked_eq_some_iff, h.sorted]
  exact ⟨if_pos h.plain, h.showable, h.read_eq⟩

/-- It is saved wherever a file can be made. -/
theorem save_checked (d : Disk) (path : String) {d' : Disk}
    (hwrite : d.write path (Yaml.write c.document).fileBytes = .ok d') :
    c.save Codec.yaml.checked d path = .ok d' := by
  simp only [save, content?, h.write_checked, Option.getD_some, hwrite]
  rfl

end WrittenAs

/-- A severity that is not known, and no options. -/
def loudSwitches : Config where
  ruleSeverities := .object [("switch.missing_default", .str "loud")]

theorem writtenAs_loudSwitches : WrittenAs loudSwitches loudSwitches where
  sorted := by
    rw [sorted_document]
    simp [loudSwitches, Value.sorted, sortedEntries, sortedItems, Entries.sorted, Value.object,
      Value.str, Value.bool]
  plain := by decide +kernel
  showable := by decide +kernel
  read := by decide +kernel

/-- New settings apart from severities and options. -/
theorem wellKeyed_document {severities configs : Value} (h : severities.WellKeyed)
    (h' : configs.WellKeyed) :
    (document { ruleSeverities := severities, ruleConfigs := configs }).WellKeyed := by
  refine .map _ (distinct_toEntries _) ?_
  intro e he
  obtain ⟨x, -, rfl⟩ := List.mem_map.1 he
  cases x with
  | enabledRules => exact .list _ fun v hv => List.mem_singleton.1 hv ▸ .scalar _
  | rejectSyntaxErrors => exact .scalar _
  | highlightDiagnostics => exact .scalar _
  | ruleSeverities => exact h
  | ruleConfigs => exact h'

theorem wellKeyed_loudSwitches : loudSwitches.document.WellKeyed :=
  wellKeyed_document
    (.object (List.nodup_singleton _) (List.forall_mem_singleton.2 (.scalar _)))
    (.map [] List.Pairwise.nil (by simp))

theorem orderFree_loudSwitches : loudSwitches.OrderFree := .scalar _

/-- The default configuration with its rules in order. -/
def sortedDefault : Config where
  ruleConfigs := .object
    [("imports.folder_path", .object [("skip_suffixes", .list [.str ".scss"])]),
      ("naming.handler_prefix", .object [("prefix", .str "handle")]),
      ("react.map_key", .object [("inspect_expression_bodies", .bool true)]),
      ("types.missing_return_type", .object [("scope_returns_to_body", .bool false)])]

theorem writtenAs_default : WrittenAs default sortedDefault where
  sorted := by
    rw [sorted_document]
    simp [default, sortedDefault, Value.sorted, sortedEntries, sortedItems, Entries.sorted,
      Value.object, Value.str, Value.bool, List.mergeSort, List.MergeSort.Internal.splitInTwo,
      Scalar.inOrder, Scalar.isText]
  plain := by decide +kernel
  showable := by decide +kernel
  read := by decide +kernel

/-- The stem of handler names is a mapping with some entries. -/
def mappedStem (entries : Entries) : Config where
  ruleConfigs := .object [("naming.handler_prefix", .object [("prefix", .map entries)])]

/-- Two entries that are not in order. -/
def crossed : Entries := [(.str "b", .int 1), (.str "a", .int 2)]

/-- The same entries in order. -/
def straight : Entries := [(.str "a", .int 2), (.str "b", .int 1)]

theorem writtenAs_mappedStem : WrittenAs (mappedStem crossed) (mappedStem straight) where
  sorted := by
    rw [sorted_document]
    simp [mappedStem, crossed, straight, Value.sorted, sortedEntries, sortedItems, Entries.sorted,
      Value.object, Value.str, Value.bool, Value.int, List.mergeSort,
      List.MergeSort.Internal.splitInTwo, Scalar.inOrder, Scalar.isText]
  plain := by decide +kernel
  showable := by decide +kernel
  read := by decide +kernel

theorem wellTyped_mappedStem (entries : Entries) : (mappedStem entries).WellTyped :=
  ⟨rfl, rfl, rfl, rfl, rfl⟩

/-- A call of a name that reads like the crossed entries behind one more character. -/
def mappedText : Text := "x\x7b'b': 1, 'a': 2\x7d()".toList

/-- The name that is called. -/
def mappedName : Node :=
  .mk { kind := "identifier", named := true, startByte := 0, endByte := 17,
        field := some "function" } []

/-- The tree of this call. -/
def mappedRoot : Node :=
  .mk { kind := "program", named := true, startByte := 0, endByte := 19 }
    [.mk { kind := "call_expression", named := true, startByte := 0, endByte := 19 } [mappedName]]

theorem stem_crossed :
    HandlerName.stem ((mappedStem crossed).optionsFor HandlerName.rule.id) =
      .ok (some "\x7b'b': 1, 'a': 2\x7d".toList) := by
  decide +kernel

theorem stem_straight :
    HandlerName.stem ((mappedStem straight).completed.optionsFor HandlerName.rule.id) =
      .ok (some "\x7b'a': 2, 'b': 1\x7d".toList) := by
  decide +kernel

/-- The source that these make. -/
def mappedSource : Source := Engine.sourceOf .ts mappedText mappedRoot

theorem selects_mappedStem (entries : Entries) :
    (mappedStem entries).selects .ts HandlerName.rule = true ∧
      (mappedStem entries).completed.selects .ts HandlerName.rule = true :=
  ⟨Config.selects_default rfl, Config.selects_default rfl⟩

theorem names_mappedRoot : HandlerName.names mappedRoot = [mappedName] := by
  rw [HandlerName.names, Node.walk_eq_preorder]
  rfl

/-- What is kept of the visit is found with the stem that the options make. -/
theorem kept_mappedSource {stem : Option Text} (hselects : c.selects .ts HandlerName.rule = true)
    (hstem : HandlerName.stem (c.optionsFor HandlerName.rule.id) = .ok stem) :
    c.kept .ts mappedSource HandlerName.rule =
      ((HandlerName.outputs mappedSource stem).mapResults (List.map Yield.output)).kept
        mappedText.length := by
  rw [kept, if_pos hselects, visitOf, HandlerName.visit_eq (s := mappedSource) rfl, hstem]
  rfl

theorem kept_crossed :
    (mappedStem crossed).kept .ts mappedSource HandlerName.rule =
      [HandlerName.info.diagnostic ⟨0, 17, by decide⟩
        (HandlerName.message "\x7b'b': 1, 'a': 2\x7d".toList)] := by
  rw [kept_mappedSource (selects_mappedStem crossed).1 stem_crossed, HandlerName.outputs,
    Source.each_eq (s := mappedSource) rfl, names_mappedRoot]
  decide +kernel

theorem kept_straight :
    (mappedStem straight).completed.kept .ts mappedSource HandlerName.rule = [] := by
  rw [kept_mappedSource (selects_mappedStem straight).2 stem_straight, HandlerName.outputs,
    Source.each_eq (s := mappedSource) rfl, names_mappedRoot]
  decide +kernel

theorem findings_mappedStem_ne :
    (mappedStem straight).completed.findings .ts mappedText (.tree (.rooted mappedRoot)) ≠
      (mappedStem crossed).findings .ts mappedText (.tree (.rooted mappedRoot)) := by
  intro heq
  have hrule : HandlerName.rule ∈ builtInRules := by simp [builtInRules]
  have hroot : ∀ entries, (mappedStem entries).rootOf (.tree (.rooted mappedRoot)) =
      some mappedRoot := fun _ => rfl
  have hsame := congrArg (fun a => Analysis.diagnosticsOf a HandlerName.rule.id) heq
  simp only [diagnosticsOf_findings hrule] at hsame
  have hstraight : (mappedStem straight).completed.kept .ts
      (Engine.sourceOf .ts mappedText mappedRoot) HandlerName.rule = [] := kept_straight
  have hcrossed : (mappedStem crossed).kept .ts
      (Engine.sourceOf .ts mappedText mappedRoot) HandlerName.rule = _ := kept_crossed
  have hroot' : (mappedStem straight).completed.rootOf (.tree (.rooted mappedRoot)) =
      some mappedRoot := rfl
  simp only [hroot, hroot', Option.toList_some, List.flatMap_singleton, hstraight,
    hcrossed] at hsame
  cases hsame

theorem wellKeyed_mappedStem :
    (mappedStem crossed).document.WellKeyed := by
  refine wellKeyed_document (.map [] List.Pairwise.nil (by simp)) ?_
  have hstem : (Value.map crossed).WellKeyed := by
    refine .map _ (show List.Pairwise _ _ by decide) ?_
    simp [crossed, Value.int, Value.WellKeyed.scalar]
  exact .object (List.nodup_singleton _) (List.forall_mem_singleton.2
    (.object (List.nodup_singleton _) (List.forall_mem_singleton.2 hstem)))

end Config

end TreeLint
