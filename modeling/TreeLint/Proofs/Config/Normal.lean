import TreeLint.Proofs.Config.Merge
import TreeLint.Proofs.Value.Reordered

/-!
# Loaded configurations

Every configuration that is loaded is `Normal`: its settings have the right shapes, its severities
are known ones, and it gives every option of the default configuration. One entry of a file keeps
this (`Normal.set`), so a whole file does (`normal_of_load`).

Completing a configuration is a normalization: a normal one stays the same data
(`Normal.sameData_completed`).
-/

namespace TreeLint

/-- A mapping to mappings, in which no key is met twice. -/
structure Entries.Nested (es : Entries) : Prop where
  distinct : es.Distinct
  inner : ∀ e ∈ es, ∃ o : Entries, e.2 = .map o ∧ o.Distinct

theorem Entries.Nested.of_reorders {es es' : Entries} (h : es.Nested)
    (hdata : es.Reorders Value.Reordered es') : es'.Nested where
  distinct := hdata.distinct h.distinct
  inner := by
    intro e' he'
    obtain ⟨e, he, -, hvalue⟩ := hdata.exists_left he'
    obtain ⟨o, ho, hdistinct⟩ := h.inner e he
    rw [ho] at hvalue
    obtain ⟨o', ho', hoptions⟩ := hvalue.map_left
    exact ⟨o', ho', hoptions.distinct hdistinct⟩

namespace Config

open Attempt Value

variable {c : Config} {es es' : Entries}

/-! ### Options by rule -/

theorem optionsAt_of_get? {id : Scalar} {o : Entries} (h : Entries.get? id es = some (.map o)) :
    optionsAt es id = o := by
  rw [optionsAt, h]
  rfl

theorem distinct_optionsAt (h : es.Nested) (id : Scalar) : (optionsAt es id).Distinct := by
  rw [optionsAt]
  cases hfound : Entries.get? id es with
  | none => exact List.Pairwise.nil
  | some v =>
    obtain ⟨k, hmem, -⟩ := Entries.exists_key_of_get? hfound
    obtain ⟨o, ho, hdistinct⟩ := h.inner _ hmem
    cases ho
    exact hdistinct

/-- Reordered options by rule give every option a reordered value. -/
theorem get?_optionsAt_of_reorders (hes : es.Nested) (h : es.Reorders Reordered es')
    (id name : String) :
    Option.Rel Reordered (Entries.get? (.str name) (optionsAt es (.str id)))
      (Entries.get? (.str name) (optionsAt es' (.str id))) := by
  have hrel := h.get?_str hes.distinct id
  rw [optionsAt, optionsAt]
  generalize hfound : Entries.get? (.str id) es = found at hrel
  generalize Entries.get? (.str id) es' = found' at hrel
  cases hrel with
  | none => exact .none
  | some hdata =>
    obtain ⟨o, ho, hdistinct⟩ := hes.inner _ (hes.distinct.get?_str_eq_some.1 hfound)
    cases ho
    obtain ⟨o', rfl, hoptions⟩ := hdata.map_left
    exact hoptions.get?_str hdistinct name

theorem nested_defaultOptions : defaultOptions.Nested where
  distinct := by
    show List.Pairwise _ _
    decide
  inner := by
    intro b hb
    obtain ⟨f, hf, rfl⟩ := List.mem_map.1 hb
    simp only [List.mem_cons, List.not_mem_nil, or_false] at hf
    rcases hf with rfl | rfl | rfl | rfl <;> exact ⟨_, rfl, List.pairwise_singleton _ _⟩

theorem names_optionsAt_default (id : Scalar) :
    ∀ p ∈ optionsAt defaultOptions id, ∃ name, p.1 = .str name := by
  intro p hp
  rw [optionsAt] at hp
  cases hfound : Entries.get? id defaultOptions with
  | none =>
    rw [hfound] at hp
    cases hp
  | some v =>
    obtain ⟨k, hmem, -⟩ := Entries.exists_key_of_get? hfound
    obtain ⟨f, hf, heq⟩ := List.mem_map.1 hmem
    cases heq
    rw [hfound] at hp
    simp only [List.mem_cons, List.not_mem_nil, or_false] at hf
    rcases hf with rfl | rfl | rfl | rfl <;>
    · obtain ⟨g, -, rfl⟩ := List.mem_map.1 hp
      exact ⟨g.1, rfl⟩

theorem optionsAt_default_congr {k id : Scalar} (h : k.sameKey id = true) :
    optionsAt defaultOptions k = optionsAt defaultOptions id := by
  by_cases hid : ∃ s, id = .str s
  · obtain ⟨s, rfl⟩ := hid
    rw [Scalar.sameKey_str_iff.1 h]
  · rw [not_exists] at hid
    have hk : ∀ s, k ≠ .str s := by
      rintro s rfl
      rw [Scalar.sameKey_comm, Scalar.sameKey_str_iff] at h
      exact hid s h
    rw [optionsAt, optionsAt, Entries.get?_eq_none_of_names names_defaultOptions hid,
      Entries.get?_eq_none_of_names names_defaultOptions hk]

theorem get?_overlaid (es : Entries) (id : Scalar) :
    Entries.get? id (es.map (overlaid defaultOptions)) =
      (Entries.get? id es).map fun v =>
        .map ((optionsAt defaultOptions id).update (v.entries?.getD [])) := by
  induction es with
  | nil => rfl
  | cons e es ih =>
    obtain ⟨k, v⟩ := e
    rw [List.map_cons, overlaid, Entries.get?_cons, Entries.get?_cons, ih]
    by_cases hsame : k.sameKey id = true
    · rw [if_pos hsame, if_pos hsame, optionsAt_default_congr hsame]
      rfl
    · rw [if_neg hsame, if_neg hsame]

theorem distinct_overlaid (h : es.Distinct) :
    Entries.Distinct (es.map (overlaid defaultOptions)) := by
  apply h.of_keys
  rw [List.map_map]
  rfl

/-- **The options of a rule** are the given ones over the default ones. -/
theorem optionsAt_update_overlaid (h : es.Distinct) (id : Scalar) :
    optionsAt (defaultOptions.update (es.map (overlaid defaultOptions))) id =
      (optionsAt defaultOptions id).update (optionsAt es id) := by
  have hlookup := Entries.get?_update_of_names names_defaultOptions (distinct_overlaid h) id
  rw [get?_overlaid] at hlookup
  rw [optionsAt, hlookup]
  cases hfound : Entries.get? id es with
  | none =>
    rw [optionsAt, optionsAt, hfound]
    rfl
  | some v =>
    rw [optionsAt, optionsAt, hfound]
    rfl

/-! ### Normal configurations -/

/-- Options by rule with a value for each default option. -/
structure NormalOptions (es : Entries) : Prop extends es.Nested where
  covers : ∀ b ∈ defaultOptions, ∀ p ∈ optionsAt defaultOptions b.1,
    (Entries.get? p.1 (optionsAt es b.1)).isSome = true

/-- Severities by rule, all of them known. -/
structure NormalSeverities (es : Entries) : Prop where
  distinct : es.Distinct
  known : ∀ e ∈ es, (severityOf? e.2).isSome = true

/-- A configuration that gives all that the default one does, and only what is known. -/
structure Normal (c : Config) : Prop where
  enabledRules : c.enabledRules.isStringList = true
  rejectSyntaxErrors : c.rejectSyntaxErrors.isFlag = true
  highlightDiagnostics : c.highlightDiagnostics.isFlag = true
  ruleSeverities : ∃ es, c.ruleSeverities = .map es ∧ NormalSeverities es
  ruleConfigs : ∃ es, c.ruleConfigs = .map es ∧ NormalOptions es

theorem normal_default : default.Normal where
  enabledRules := rfl
  rejectSyntaxErrors := rfl
  highlightDiagnostics := rfl
  ruleSeverities := ⟨[], rfl, List.Pairwise.nil, by simp⟩
  ruleConfigs := by
    refine ⟨defaultOptions, rfl, nested_defaultOptions, ?_⟩
    intro b _ p hp
    obtain ⟨name, hname⟩ := names_optionsAt_default b.1 p hp
    have hfound : Entries.get? (.str name) (optionsAt defaultOptions b.1) = some p.2 := by
      rw [(distinct_optionsAt nested_defaultOptions b.1).get?_str_eq_some, ← hname]
      exact hp
    rw [hname, hfound]
    rfl

theorem isSome_get?_update {name : String} {base : Entries}
    (h : (Entries.get? (.str name) base).isSome = true) (extra : Entries) :
    (Entries.get? (.str name) (base.update extra)).isSome = true := by
  induction extra generalizing base with
  | nil => exact h
  | cons e rest ih =>
    apply ih
    rw [Entries.get?_str_put]
    split
    · rfl
    · exact h

/-- The options of one rule in a file keep the options normal. -/
theorem NormalOptions.put (h : NormalOptions es) (id : Scalar) (given : Entries) :
    NormalOptions (Entries.put id (.map ((optionsAt es id).update given)) es) where
  distinct := h.distinct.put _ _
  inner := by
    intro e he
    rcases Entries.mem_put he with hvalue | hmem
    · exact ⟨_, hvalue, (distinct_optionsAt h.toNested id).update given⟩
    · exact h.inner e hmem
  covers := by
    intro b hb p hp
    obtain ⟨rule, hrule⟩ := names_defaultOptions b hb
    obtain ⟨name, hname⟩ := names_optionsAt_default b.1 p hp
    have hgiven := h.covers b hb p hp
    rw [hrule, hname] at hgiven ⊢
    by_cases hid : id = .str rule
    · have hfound := Entries.get?_str_put rule id (.map ((optionsAt es id).update given)) es
      rw [if_pos hid] at hfound
      rw [optionsAt_of_get? hfound, hid]
      exact isSome_get?_update hgiven given
    · have hfound := Entries.get?_str_put rule id (.map ((optionsAt es id).update given)) es
      rw [if_neg hid] at hfound
      rw [optionsAt, hfound]
      exact hgiven

theorem NormalOptions.mergeOptions (h : NormalOptions es) {given : Entries} {v : Value}
    (hmerged : Config.mergeOptions (.map es) given = .ok v) :
    ∃ es', v = .map es' ∧ NormalOptions es' := by
  induction given generalizing es with
  | nil =>
    cases hmerged
    exact ⟨es, rfl, h⟩
  | cons e rest ih =>
    obtain ⟨id, v'⟩ := e
    have hmappings : ∀ b ∈ es, b.2.isMapping = true := by
      intro b hb
      obtain ⟨o, ho, -⟩ := h.inner b hb
      rw [ho]
      rfl
    simp only [Config.mergeOptions, optionsUnder_eq hmappings, bind, Except.bind] at hmerged
    split at hmerged
    · cases hmerged
    · exact ih (h.put id _) hmerged

theorem NormalSeverities.update (h : NormalSeverities es) (given : Entries) :
    NormalSeverities (es.update (given.filter fun e => (severityOf? e.2).isSome)) where
  distinct := h.distinct.update _
  known := by
    intro e he
    rcases Entries.mem_update he with ⟨x, hx, hvalue⟩ | hmem
    · rw [← hvalue]
      exact (List.mem_filter.1 hx).2
    · exact h.known e hmem

/-- **One setting of a file keeps a configuration normal.** -/
theorem Normal.set (hc : c.Normal) {x : Setting} {v new : Value}
    (hmerged : (mergeValue x.name (c.get x) v).result = .ok new) : (c.set x new).Normal := by
  cases x with
  | enabledRules =>
    rw [result_mergeValue_enabledRules] at hmerged
    split at hmerged
    · rename_i hlist
      cases hmerged
      exact { hc with enabledRules := hlist }
    · cases hmerged
  | rejectSyntaxErrors =>
    rw [result_mergeValue_flag rfl] at hmerged
    split at hmerged
    · rename_i hflag
      cases hmerged
      exact { hc with rejectSyntaxErrors := hflag }
    · cases hmerged
  | highlightDiagnostics =>
    rw [result_mergeValue_flag rfl] at hmerged
    split at hmerged
    · rename_i hflag
      cases hmerged
      exact { hc with highlightDiagnostics := hflag }
    · cases hmerged
  | ruleSeverities =>
    obtain ⟨es, hes, hnormal⟩ := hc.ruleSeverities
    have hold : c.get .ruleSeverities = .map es := hes
    rw [result_mergeValue_ruleSeverities, hold] at hmerged
    cases hgiven : sectionEntries Setting.ruleSeverities.name v with
    | error e =>
      rw [hgiven] at hmerged
      cases hmerged
    | ok given =>
      rw [hgiven] at hmerged
      replace hmerged : (mergeSeverities (.map es) given).result = .ok new := hmerged
      rw [result_mergeSeverities] at hmerged
      cases hmerged
      exact { hc with ruleSeverities := ⟨_, rfl, hnormal.update given⟩ }
  | ruleConfigs =>
    obtain ⟨es, hes, hnormal⟩ := hc.ruleConfigs
    have hold : c.get .ruleConfigs = .map es := hes
    rw [result_mergeValue_ruleConfigs, hold] at hmerged
    cases hgiven : sectionEntries Setting.ruleConfigs.name v with
    | error e =>
      rw [hgiven] at hmerged
      cases hmerged
    | ok given =>
      rw [hgiven] at hmerged
      exact { hc with ruleConfigs := hnormal.mergeOptions hmerged }

theorem Normal.merge (hc : c.Normal) {given merged : Entries}
    (h : (Config.merge c.toEntries given).result = .ok merged) :
    ∃ c' : Config, merged = c'.toEntries ∧ c'.Normal := by
  induction given generalizing c with
  | nil =>
    cases h
    exact ⟨c, rfl, hc⟩
  | cons e rest ih =>
    obtain ⟨key, v⟩ := e
    rw [Config.merge, result_bind_eq_ok] at h
    obtain ⟨next, hnext, hrest⟩ := h
    rcases mergeEntry_toEntries hnext with rfl | ⟨x, new, hnew, rfl⟩
    · exact ih hc hrest
    · exact ih (hc.set hnew) hrest

theorem normal_of_ofDocument {v : Value} (h : (ofDocument v).result = .ok c) : c.Normal := by
  rw [ofDocument, result_bind_eq_ok] at h
  obtain ⟨given, -, h⟩ := h
  rw [result_bind_eq_ok] at h
  obtain ⟨merged, hmerged, hc⟩ := h
  obtain ⟨c', rfl, hc'⟩ := normal_default.merge hmerged
  rw [result_pure, ofEntries_toEntries] at hc
  cases hc
  exact hc'

theorem result_orDefault (x : Attempt LoadError Config) :
    (orDefault x).result =
      match x.result with
      | .ok c => .ok c
      | .error e =>
        match graveFault? e with
        | some f => .error f
        | none => .ok default := by
  have hlift : Attempt.result (ε := Yaml.Fault) (ExceptT.lift x.run) = .ok x.result := rfl
  rw [orDefault, result_bind_ok hlift]
  cases x.result with
  | ok c => rfl
  | error e =>
    simp only
    cases graveFault? e with
    | some f => rfl
    | none => rfl

variable {codec : Codec}

theorem result_ofContent {content : ByteArray} {v : Value}
    (h : codec.read content.toList = .ok v) :
    (ofContent codec content).result = (ofDocument v).result.mapError LoadError.refused := by
  have hread : (ofExcept ((codec.read content.toList).mapError LoadError.document)).result =
      .ok v := by
    rw [result_ofExcept, h]
    rfl
  rw [ofContent, result_bind_ok hread]
  rfl

theorem normal_of_ofContent {content : ByteArray} (h : (ofContent codec content).result = .ok c) :
    c.Normal := by
  cases hread : codec.read content.toList with
  | error f =>
    rw [ofContent, hread] at h
    cases h
  | ok v =>
    rw [result_ofContent hread] at h
    cases hdocument : (ofDocument v).result with
    | error e =>
      rw [hdocument] at h
      cases h
    | ok c' =>
      rw [hdocument] at h
      cases h
      exact normal_of_ofDocument hdocument

/-- **A configuration that is loaded is normal**, from whatever file. -/
theorem normal_of_load {d : Disk} {path : Option String}
    (h : (load codec d path).result = .ok c) : c.Normal := by
  have horDefault : ∀ x : Attempt LoadError Config, (∀ c', x.result = .ok c' → c'.Normal) →
      (orDefault x).result = .ok c → c.Normal := by
    intro x hx hc
    rw [result_orDefault] at hc
    split at hc
    · rename_i c' hc'
      cases hc
      exact hx c hc'
    · split at hc
      · cases hc
      · cases hc
        exact normal_default
  unfold load at h
  split at h
  · cases h
    exact normal_default
  · split at h
    · exact horDefault _ (fun c' hc' => normal_of_ofContent hc') h
    · exact horDefault _ (fun c' hc' => by cases hc') h

/-! ### Completing a normal configuration -/

/-- Two configurations hold the same data, in whatever order the entries of mappings come. -/
def SameData (c c' : Config) : Prop := ∀ x, Reordered (c.get x) (c'.get x)

theorem severityOf?_eq_of_reordered {v w : Value} (h : Reordered v w) :
    severityOf? v = severityOf? w := by
  rw [severityOf?, severityOf?, h.str?_eq]

theorem rigid_of_isFlag {v : Value} (h : v.isFlag = true) : v.Rigid := by
  cases v with
  | scalar s => exact .scalar s
  | _ => cases h

theorem rigid_of_isStringList {v : Value} (h : v.isStringList = true) : v.Rigid := by
  cases v with
  | list xs =>
    rw [isStringList, List.all_eq_true] at h
    refine .list xs fun x hx => ?_
    have hstring := h x hx
    cases x with
    | scalar s => exact .scalar s
    | _ => cases hstring
  | _ => cases h

/-- The same data is equal in a setting that has no other order. -/
theorem SameData.get_eq {c' : Config} (h : c.SameData c') (x : Setting)
    (hx : (c.get x).Rigid) : c'.get x = c.get x := ((h x).eq_of_rigid hx).symm

theorem NormalSeverities.perm_update (h : NormalSeverities es) :
    (Entries.update [] (es.filter fun e => (severityOf? e.2).isSome)).Perm es := by
  rw [List.filter_eq_self.2 h.known]
  exact Entries.perm_update_of_covered List.Pairwise.nil h.distinct (by simp [Entries.Aligned])
    (by simp)

/-- Default options below given ones add nothing. -/
theorem NormalOptions.perm_options (h : NormalOptions es) {id : Scalar} {o : Entries}
    (hmem : (id, .map o) ∈ es) : ((optionsAt defaultOptions id).update o).Perm o := by
  obtain ⟨_, hinner, hdistinct⟩ := h.inner _ hmem
  cases hinner
  have hbase : (optionsAt defaultOptions id).Distinct := distinct_optionsAt nested_defaultOptions id
  have haligned := Entries.aligned_of_names (names_optionsAt_default id) o
  apply Entries.perm_update_of_covered hbase hdistinct haligned
  intro p hp
  cases hfound : Entries.get? id defaultOptions with
  | none =>
    rw [optionsAt, hfound] at hp
    cases hp
  | some v =>
    obtain ⟨k, hk, hsame⟩ := Entries.exists_key_of_get? hfound
    obtain ⟨rule, hrule⟩ := names_defaultOptions _ hk
    replace hrule : k = .str rule := hrule
    rw [hrule, Scalar.sameKey_comm, Scalar.sameKey_str_iff] at hsame
    have hcovers := h.covers _ hk
    obtain ⟨name, hname⟩ := names_optionsAt_default id p hp
    simp only [hrule] at hcovers
    rw [hsame] at hp hmem
    have ho : Entries.get? (.str rule) es = some (.map o) := h.distinct.get?_str_eq_some.2 hmem
    have hgiven := hcovers p hp
    rw [optionsAt_of_get? ho] at hgiven
    obtain ⟨w, hw⟩ := Option.isSome_iff_exists.1 hgiven
    obtain ⟨k', hk', hsame'⟩ := Entries.exists_key_of_get? hw
    rw [Scalar.sameKey_comm] at hsame'
    exact ⟨_, hk', hsame'⟩

theorem exists_default_option : ∀ b ∈ defaultOptions, ∃ p, p ∈ optionsAt defaultOptions b.1 := by
  have hsome : ∀ b ∈ defaultOptions, (optionsAt defaultOptions b.1).isEmpty = false := by
    decide
  intro b hb
  exact List.exists_mem_of_ne_nil _ fun hnil => by simpa [hnil] using hsome b hb

theorem NormalOptions.reorders_completed (h : NormalOptions es) :
    es.Reorders Reordered (defaultOptions.update (es.map (overlaid defaultOptions))) := by
  have hdistinct := distinct_overlaid h.distinct
  refine ⟨es.map (overlaid defaultOptions), ?_, ?_⟩
  · rw [List.forall₂_map_right_iff, List.forall₂_same]
    intro e he
    obtain ⟨o, ho, -⟩ := h.inner e he
    refine ⟨rfl, ?_⟩
    have hmem : (e.1, .map o) ∈ es := ho ▸ he
    rw [overlaid, ho]
    exact .perm (h.perm_options hmem).symm
  · apply List.Perm.symm
    apply Entries.perm_update_of_covered nested_defaultOptions.distinct hdistinct
      (Entries.aligned_of_names names_defaultOptions _)
    intro b hb
    obtain ⟨p, hp⟩ := exists_default_option b hb
    have hgiven := h.covers b hb p hp
    rw [optionsAt] at hgiven
    cases hfound : Entries.get? b.1 es with
    | none =>
      rw [hfound] at hgiven
      cases hgiven
    | some v =>
      obtain ⟨k, hk, hsame⟩ := Entries.exists_key_of_get? hfound
      rw [Scalar.sameKey_comm] at hsame
      exact ⟨_, List.mem_map_of_mem hk, hsame⟩

theorem NormalSeverities.of_reorders (h : NormalSeverities es)
    (hdata : es.Reorders Reordered es') : NormalSeverities es' where
  distinct := hdata.distinct h.distinct
  known := by
    intro e' he'
    obtain ⟨e, he, -, hvalue⟩ := hdata.exists_left he'
    rw [← severityOf?_eq_of_reordered hvalue]
    exact h.known e he

theorem NormalOptions.of_reorders (h : NormalOptions es)
    (hdata : es.Reorders Reordered es') : NormalOptions es' where
  toNested := h.toNested.of_reorders hdata
  covers := by
    intro b hb p hp
    obtain ⟨rule, hrule⟩ := names_defaultOptions b hb
    obtain ⟨name, hname⟩ := names_optionsAt_default b.1 p hp
    have hgiven := h.covers b hb p hp
    rw [hrule, hname] at hgiven ⊢
    have hrel := get?_optionsAt_of_reorders h.toNested hdata rule name
    generalize Entries.get? (.str name) (optionsAt es (.str rule)) = old at hrel hgiven
    generalize Entries.get? (.str name) (optionsAt es' (.str rule)) = new at hrel
    cases hrel with
    | none => cases hgiven
    | some _ => rfl

theorem SameData.trans {c c' c'' : Config} (h : c.SameData c') (h' : c'.SameData c'') :
    c.SameData c'' := fun x => .trans (h x) (h' x)

/-- The same data is normal as well. -/
theorem Normal.of_sameData (hc : c.Normal) {c' : Config} (h : c.SameData c') : c'.Normal where
  enabledRules := by
    have heq : c'.enabledRules = c.enabledRules :=
      h.get_eq .enabledRules (rigid_of_isStringList hc.enabledRules)
    exact heq ▸ hc.enabledRules
  rejectSyntaxErrors := by
    have heq : c'.rejectSyntaxErrors = c.rejectSyntaxErrors :=
      h.get_eq .rejectSyntaxErrors (rigid_of_isFlag hc.rejectSyntaxErrors)
    exact heq ▸ hc.rejectSyntaxErrors
  highlightDiagnostics := by
    have heq : c'.highlightDiagnostics = c.highlightDiagnostics :=
      h.get_eq .highlightDiagnostics (rigid_of_isFlag hc.highlightDiagnostics)
    exact heq ▸ hc.highlightDiagnostics
  ruleSeverities := by
    obtain ⟨es, hes, hnormal⟩ := hc.ruleSeverities
    have hdata : Reordered (.map es) c'.ruleSeverities := hes ▸ h .ruleSeverities
    obtain ⟨es', hes', hreorders⟩ := hdata.map_left
    exact ⟨es', hes', hnormal.of_reorders hreorders⟩
  ruleConfigs := by
    obtain ⟨es, hes, hnormal⟩ := hc.ruleConfigs
    have hdata : Reordered (.map es) c'.ruleConfigs := hes ▸ h .ruleConfigs
    obtain ⟨es', hes', hreorders⟩ := hdata.map_left
    exact ⟨es', hes', hnormal.of_reorders hreorders⟩

theorem Normal.acceptable (hc : c.Normal) : c.Acceptable where
  enabledRules := hc.enabledRules
  rejectSyntaxErrors := hc.rejectSyntaxErrors
  highlightDiagnostics := hc.highlightDiagnostics
  ruleSeverities := by
    obtain ⟨es, hes, -⟩ := hc.ruleSeverities
    rw [hes]
    rfl
  ruleConfigs := by
    obtain ⟨es, hes, hnormal⟩ := hc.ruleConfigs
    rw [hes, isMappingOfMappings, List.all_eq_true]
    intro e he
    obtain ⟨o, ho, -⟩ := hnormal.inner e he
    rw [ho]
    rfl
  distinct := by
    obtain ⟨es, hes, hnormal⟩ := hc.ruleConfigs
    rw [optionEntries, hes]
    exact hnormal.distinct

/-- **Completing a normal configuration changes nothing.** -/
theorem Normal.sameData_completed (hc : c.Normal) : c.SameData c.completed := by
  intro x
  cases x with
  | enabledRules => exact .refl _
  | rejectSyntaxErrors => exact .refl _
  | highlightDiagnostics => exact .refl _
  | ruleSeverities =>
    obtain ⟨es, hes, hnormal⟩ := hc.ruleSeverities
    have hperm := hnormal.perm_update.symm
    simp only [get, completed, severityEntries, hes]
    exact .perm hperm
  | ruleConfigs =>
    obtain ⟨es, hes, hnormal⟩ := hc.ruleConfigs
    simp only [get, completed, optionEntries, hes]
    exact .of_reorders hnormal.reorders_completed

end Config

end TreeLint
