import Mathlib.Data.List.Perm.Basic
import TreeLint.Config.File
import TreeLint.Proofs.Engine.Contribution
import TreeLint.Proofs.Value.Entries

/-!
# What a configuration file comes to

A file is laid over the default settings entry by entry. What one entry does is said by
`mergeEntry_toEntries`: it changes one setting, or nothing. A whole file then changes each setting
that it gives by itself, or comes to nothing (`MergesTo`, `result_merge`). If it gives each setting
once and in the right shape, it comes to one configuration, whatever the order of its entries
(`result_ofDocument`): the given one with its unknown severities dropped and its options laid over
the default ones (`Config.completed`).
-/

namespace TreeLint

/-- Whether a value is a section of a file: a mapping, or null for an empty one. -/
def Value.isSection : Value → Bool
  | .scalar .null | .map _ => true
  | _ => false

theorem Value.isSection_of_isMapping {v : Value} (h : v.isMapping = true) : v.isSection = true := by
  obtain ⟨es, rfl⟩ := eq_map_of_isMapping h
  rfl

/-- Whether an error is about what a file says, and not about the defaults. -/
def SettingError.blamesFile : SettingError → Bool
  | .defaultOptions _ | .defaultSeverities => false
  | _ => true

theorem Setting.name_injective {x y : Setting} (h : x.name = y.name) : x = y := by
  have hfound := ofName?_name x
  rw [h, ofName?_name y] at hfound
  exact (Option.some.inj hfound).symm

namespace Config

open Attempt

variable {c : Config} {base given : Entries}

/-! ### Settings as entries -/

@[simp] theorem get?_toEntries (c : Config) (x : Setting) :
    Entries.get? (.str x.name) c.toEntries = some (c.get x) := by
  cases x <;> simp [toEntries, Setting.all, Entries.get?_str_cons, Setting.name]

@[simp] theorem put_toEntries (c : Config) (x : Setting) (v : Value) :
    Entries.put (.str x.name) v c.toEntries = (c.set x v).toEntries := by
  cases x <;> simp [toEntries, Setting.all, Entries.put_cons, Setting.name, Scalar.sameKey_str,
    get, set]

@[simp] theorem ofEntries_toEntries (c : Config) : ofEntries c.toEntries = c := by
  simp only [ofEntries, Setting.all, List.foldl_cons, List.foldl_nil, get?_toEntries]
  rfl

theorem ext_get {c c' : Config} (h : ∀ x, c.get x = c'.get x) : c = c' := by
  have hentries : c.toEntries = c'.toEntries := List.map_congr_left fun x _ => by rw [h x]
  rw [← ofEntries_toEntries c, hentries, ofEntries_toEntries]

/-- What is found among the settings is one of them. -/
theorem exists_setting_of_get? {key : Scalar} {v : Value}
    (h : Entries.get? key c.toEntries = some v) :
    ∃ x : Setting, key = .str x.name ∧ v = c.get x := by
  obtain ⟨k, hmem, hsame⟩ := Entries.exists_key_of_get? h
  obtain ⟨x, -, hx⟩ := List.mem_map.1 hmem
  cases hx
  rw [Scalar.sameKey_comm, Scalar.sameKey_str_iff] at hsame
  exact ⟨x, hsame, rfl⟩

/-! ### Sections -/

theorem sectionEntries_eq (key : String) (v : Value) :
    sectionEntries key v =
      if v.isSection then .ok (v.entries?.getD []) else .error (.mapping key v) := by
  cases v with
  | scalar a => cases a <;> rfl
  | _ => rfl

/-- An entry that gives a rule options: the rule has an id that can be told, and the options are a
section. -/
structure GivesOptions (e : Scalar × Value) : Prop where
  told : e.1.isShowable = true
  isSection : e.2.isSection = true

theorem givenOptions_eq {e : Scalar × Value} (h : GivesOptions e) :
    givenOptions e.1 e.2 = .ok (e.2.entries?.getD []) := by
  rw [givenOptions, if_pos h.told, sectionEntries_eq, if_pos h.isSection]

theorem exists_refusal_of_givenOptions {e : Scalar × Value} (h : ¬GivesOptions e) :
    ∃ err, givenOptions e.1 e.2 = .error err ∧ err.blamesFile = true := by
  rw [givenOptions]
  by_cases htold : e.1.isShowable = true
  · rw [if_pos htold, sectionEntries_eq, if_neg fun hsection => h ⟨htold, hsection⟩]
    exact ⟨_, rfl, rfl⟩
  · rw [if_neg htold]
    exact ⟨_, rfl, rfl⟩

/-! ### One entry of a file -/

theorem result_mergeValue_ruleConfigs (base v : Value) :
    (mergeValue Setting.ruleConfigs.name base v).result =
      sectionEntries Setting.ruleConfigs.name v >>= mergeOptions base := by
  unfold mergeValue
  rw [if_pos rfl, result_bind, result_ofExcept]
  rfl

theorem result_mergeValue_ruleSeverities (base v : Value) :
    (mergeValue Setting.ruleSeverities.name base v).result =
      sectionEntries Setting.ruleSeverities.name v >>= fun given =>
        (mergeSeverities base given).result := by
  unfold mergeValue
  rw [if_neg (by decide), if_pos rfl, result_bind, result_ofExcept]

theorem result_mergeValue_enabledRules (base v : Value) :
    (mergeValue Setting.enabledRules.name base v).result =
      if v.isStringList then .ok v else .error (.patterns v) := by
  unfold mergeValue
  rw [if_neg (by decide), if_neg (by decide), if_pos rfl]
  split <;> rfl

theorem result_mergeValue_flag {x : Setting} (hx : isCollection x = false) (base v : Value) :
    (mergeValue x.name base v).result = if v.isFlag then .ok v else .error (.flag x.name v) := by
  have hnames : ∀ y, isCollection y = true → x.name ≠ y.name := by
    intro y hy hname
    rw [Setting.name_injective hname, hy] at hx
    cases hx
  unfold mergeValue
  rw [if_neg (hnames _ rfl), if_neg (hnames _ rfl), if_neg (hnames _ rfl)]
  cases v with
  | scalar a => cases a <;> rfl
  | _ => rfl

theorem result_mergeEntry (c : Config) (x : Setting) (v : Value) :
    (mergeEntry c.toEntries (.str x.name) v).result =
      (mergeValue x.name (c.get x) v).result.map fun new => (c.set x new).toEntries := by
  simp only [mergeEntry, get?_toEntries, result_bind, put_toEntries]
  cases (mergeValue x.name (c.get x) v).result <;> rfl

/-- A key that is not known is passed over. -/
theorem result_mergeEntry_of_unknown {key : Scalar}
    (h : Entries.get? key c.toEntries = none) (v : Value) :
    (mergeEntry c.toEntries key v).result = .ok c.toEntries := by
  unfold mergeEntry
  rw [h]
  split
  · rename_i heq
    cases heq
  · exact result_bind_ok (result_warn _) _

/-- **What one entry of a file does.** It gives a setting a value or is passed over. -/
theorem mergeEntry_toEntries {key : Scalar} {v : Value} {es : Entries}
    (h : (mergeEntry c.toEntries key v).result = .ok es) :
    es = c.toEntries ∨ ∃ (x : Setting) (new : Value),
      (mergeValue x.name (c.get x) v).result = .ok new ∧ es = (c.set x new).toEntries := by
  cases hfound : Entries.get? key c.toEntries with
  | none =>
    rw [result_mergeEntry_of_unknown hfound] at h
    cases h
    exact Or.inl rfl
  | some v' =>
    obtain ⟨x, rfl, -⟩ := exists_setting_of_get? hfound
    right
    rw [result_mergeEntry] at h
    cases hnew : (mergeValue x.name (c.get x) v).result with
    | error e =>
      rw [hnew] at h
      cases h
    | ok new =>
      rw [hnew] at h
      cases h
      exact ⟨x, new, hnew, rfl⟩

/-! ### Severities and options -/

/-- **Merged severities** are the known ones over the others. -/
theorem result_mergeSeverities (base given : Entries) :
    (mergeSeverities (.map base) given).result =
      .ok (.map (base.update (given.filter fun e => (severityOf? e.2).isSome))) := by
  induction given generalizing base with
  | nil => rfl
  | cons e rest ih =>
    obtain ⟨k, v⟩ := e
    cases hv : severityOf? v with
    | none =>
      have hskip : ((k, v) :: rest).filter (fun e => (severityOf? e.2).isSome) =
          rest.filter fun e => (severityOf? e.2).isSome :=
        List.filter_cons_of_neg (by simp [hv])
      rw [hskip, ← ih]
      simp only [mergeSeverities, hv]
      exact result_bind_ok (result_warn _) _
    | some s =>
      have htake : ((k, v) :: rest).filter (fun e => (severityOf? e.2).isSome) =
          (k, v) :: rest.filter fun e => (severityOf? e.2).isSome :=
        List.filter_cons_of_pos (by simp [hv])
      rw [htake, Entries.update_cons, ← ih]
      simp only [mergeSeverities, hv]

/-- The options of a rule in a section, none if they are no mapping. -/
def optionsAt (base : Entries) (ruleId : Scalar) : Entries :=
  ((Entries.get? ruleId base).bind Value.entries?).getD []

/-- An entry with options, laid over those of a section. -/
def overlaid (base : Entries) (e : Scalar × Value) : Scalar × Value :=
  (e.1, .map ((optionsAt base e.1).update (e.2.entries?.getD [])))

theorem optionsUnder_eq (hbase : ∀ b ∈ base, b.2.isMapping = true) (ruleId : Scalar) :
    optionsUnder base ruleId = .ok (optionsAt base ruleId) := by
  rw [optionsUnder, optionsAt]
  cases hfound : Entries.get? ruleId base with
  | none => rfl
  | some v =>
    obtain ⟨k, hmem, -⟩ := Entries.exists_key_of_get? hfound
    obtain ⟨old, hold⟩ := Value.eq_map_of_isMapping (hbase _ hmem)
    cases hold
    rfl

/-- Laying options over those of a section keeps it a mapping to mappings. -/
theorem isMapping_put (hbase : ∀ b ∈ base, b.2.isMapping = true) (ruleId : Scalar)
    (o : Entries) : ∀ b ∈ Entries.put ruleId (.map o) base, b.2.isMapping = true := by
  intro b hb
  rcases Entries.mem_put hb with hvalue | hmem
  · rw [hvalue]
    rfl
  · exact hbase b hmem

theorem mergeOptions_cons (hbase : ∀ b ∈ base, b.2.isMapping = true) (ruleId : Scalar) (v : Value)
    (rest : Entries) :
    mergeOptions (.map base) ((ruleId, v) :: rest) =
      givenOptions ruleId v >>= fun o =>
        mergeOptions (.map (Entries.put ruleId (.map ((optionsAt base ruleId).update o)) base))
          rest := by
  simp only [mergeOptions, optionsUnder_eq hbase]
  rfl

/-- **Merged options** are those of each rule over the default ones. -/
theorem mergeOptions_eq (hbase : ∀ b ∈ base, b.2.isMapping = true)
    (hgiven : ∀ e ∈ given, GivesOptions e) (hdistinct : given.Distinct)
    (haligned : base.Aligned given) :
    mergeOptions (.map base) given = .ok (.map (base.update (given.map (overlaid base)))) := by
  induction given generalizing base with
  | nil => rfl
  | cons e rest ih =>
    obtain ⟨k, v⟩ := e
    obtain ⟨hfirst, hrest⟩ := Entries.Distinct.cons_iff.1 hdistinct
    let o := v.entries?.getD []
    let next := Entries.put k (.map ((optionsAt base k).update o)) base
    have hnext : ∀ b ∈ next, b.2.isMapping = true := isMapping_put hbase k _
    -- the options of later rules are still the default ones
    have hsame : rest.map (overlaid next) = rest.map (overlaid base) := by
      apply List.map_congr_left
      intro x hx
      have hkept : Entries.get? x.1 next = Entries.get? x.1 base :=
        Entries.get?_put_of_ne (hfirst x hx) (fun b hb => haligned b hb _ List.mem_cons_self) _
      rw [overlaid, overlaid, optionsAt, optionsAt, hkept]
    have hstep : mergeOptions (.map base) ((k, v) :: rest) = mergeOptions (.map next) rest := by
      rw [mergeOptions_cons hbase, givenOptions_eq (hgiven _ List.mem_cons_self)]
      rfl
    rw [hstep, ih hnext (fun x hx => hgiven x (List.mem_cons_of_mem _ hx)) hrest
      (haligned.put hdistinct _), hsame]
    rfl

theorem exists_refusal_of_mergeOptions (hbase : ∀ b ∈ base, b.2.isMapping = true)
    (h : ∃ e ∈ given, ¬GivesOptions e) :
    ∃ err, mergeOptions (.map base) given = .error err ∧ err.blamesFile = true := by
  induction given generalizing base with
  | nil =>
    obtain ⟨e, he, -⟩ := h
    cases he
  | cons e rest ih =>
    obtain ⟨k, v⟩ := e
    rw [mergeOptions_cons hbase]
    by_cases hfirst : GivesOptions (k, v)
    · rw [givenOptions_eq hfirst]
      obtain ⟨e, he, hgives⟩ := h
      rcases List.mem_cons.1 he with rfl | hrest
      · exact absurd hfirst hgives
      · exact ih (isMapping_put hbase k _) ⟨e, hrest, hgives⟩
    · obtain ⟨err, herr, hblame⟩ := exists_refusal_of_givenOptions hfirst
      rw [herr]
      exact ⟨err, rfl, hblame⟩

/-! ### What a setting comes to -/

/-- The default options by rule. -/
def defaultOptions : Entries := default.ruleConfigs.entries?.getD []

theorem names_defaultOptions : ∀ b ∈ defaultOptions, ∃ name, b.1 = .str name := by
  intro b hb
  obtain ⟨f, -, rfl⟩ := List.mem_map.1 hb
  exact ⟨f.1, rfl⟩

theorem mappings_defaultOptions : ∀ b ∈ defaultOptions, b.2.isMapping = true := by
  decide

/-- The values that a file may give a setting. -/
def Fits : Setting → Value → Prop
  | .enabledRules, v => v.isStringList = true
  | .rejectSyntaxErrors, v | .highlightDiagnostics, v => v.isFlag = true
  | .ruleSeverities, v => v.isSection = true
  | .ruleConfigs, v => v.isSection = true ∧ ∀ e ∈ v.entries?.getD [], GivesOptions e

/-- What a setting of the default configuration comes to when a file gives it a value: unknown
severities are dropped, and options are laid over the default ones. -/
def settled : Setting → Value → Value
  | .ruleSeverities, v =>
    .map (Entries.update [] ((v.entries?.getD []).filter fun e => (severityOf? e.2).isSome))
  | .ruleConfigs, v =>
    .map (defaultOptions.update ((v.entries?.getD []).map (overlaid defaultOptions)))
  | _, v => v

/-- **A value that fits is taken over.** No rule may have options twice. -/
theorem result_mergeValue_of_fits {x : Setting} {v : Value} (h : Fits x v)
    (hdistinct : Entries.Distinct (v.entries?.getD [])) :
    (mergeValue x.name (default.get x) v).result = .ok (settled x v) := by
  cases x with
  | enabledRules =>
    rw [result_mergeValue_enabledRules]
    exact if_pos h
  | rejectSyntaxErrors =>
    rw [result_mergeValue_flag rfl]
    exact if_pos h
  | highlightDiagnostics =>
    rw [result_mergeValue_flag rfl]
    exact if_pos h
  | ruleSeverities =>
    rw [Fits] at h
    rw [result_mergeValue_ruleSeverities, sectionEntries_eq, if_pos h]
    exact result_mergeSeverities [] _
  | ruleConfigs =>
    rw [result_mergeValue_ruleConfigs, sectionEntries_eq, if_pos h.1]
    exact mergeOptions_eq mappings_defaultOptions h.2 hdistinct
      (Entries.aligned_of_names names_defaultOptions _)

/-- **A value that does not fit is refused.** -/
theorem exists_refusal_of_not_fits {x : Setting} {v : Value} (h : ¬Fits x v) :
    ∃ e, (mergeValue x.name (default.get x) v).result = .error e ∧ e.blamesFile = true := by
  cases x with
  | enabledRules =>
    rw [result_mergeValue_enabledRules]
    exact ⟨_, if_neg h, rfl⟩
  | rejectSyntaxErrors =>
    rw [result_mergeValue_flag rfl]
    exact ⟨_, if_neg h, rfl⟩
  | highlightDiagnostics =>
    rw [result_mergeValue_flag rfl]
    exact ⟨_, if_neg h, rfl⟩
  | ruleSeverities =>
    rw [Fits] at h
    rw [result_mergeValue_ruleSeverities, sectionEntries_eq, if_neg h]
    exact ⟨_, rfl, rfl⟩
  | ruleConfigs =>
    rw [result_mergeValue_ruleConfigs, sectionEntries_eq]
    by_cases hsection : v.isSection = true
    · rw [if_pos hsection]
      apply exists_refusal_of_mergeOptions mappings_defaultOptions
      by_contra hall
      exact h ⟨hsection, fun e he => by_contra fun hgives => hall ⟨e, he, hgives⟩⟩
    · rw [if_neg hsection]
      exact ⟨_, rfl, rfl⟩

/-! ### All entries of a file -/

/-- What entries make of a configuration: each setting that is given has been merged into what it
was, and the others are what they were. -/
def MergesTo (c : Config) (given : Entries) (c' : Config) : Prop :=
  ∀ x, (Entries.get? (.str x.name) given = none → c'.get x = c.get x) ∧
    ∀ v, Entries.get? (.str x.name) given = some v →
      (mergeValue x.name (c.get x) v).result = .ok (c'.get x)

theorem get?_name_cons_self (x : Setting) (v : Value) (rest : Entries) :
    Entries.get? (.str x.name) ((.str x.name, v) :: rest) = some v := by
  rw [Entries.get?_str_cons, if_pos rfl]

theorem get?_name_cons_of_ne {x y : Setting} (h : y ≠ x) (v : Value) (rest : Entries) :
    Entries.get? (.str y.name) ((.str x.name, v) :: rest) = Entries.get? (.str y.name) rest := by
  rw [Entries.get?_str_cons, if_neg]
  intro hkey
  exact h (Setting.name_injective (Scalar.str.inj hkey)).symm

theorem get?_name_cons_of_unknown {key : Scalar} {c : Config}
    (h : Entries.get? key c.toEntries = none) (x : Setting) (v : Value) (rest : Entries) :
    Entries.get? (.str x.name) ((key, v) :: rest) = Entries.get? (.str x.name) rest := by
  rw [Entries.get?_str_cons, if_neg]
  intro hkey
  rw [hkey, get?_toEntries] at h
  cases h

/-- One setting more, in front of the others. -/
theorem MergesTo.cons {c c' : Config} {x : Setting} {v new : Value} {rest : Entries}
    (hgone : Entries.get? (.str x.name) rest = none)
    (hnew : (mergeValue x.name (c.get x) v).result = .ok new)
    (h : MergesTo (c.set x new) rest c') : MergesTo c ((.str x.name, v) :: rest) c' := by
  intro y
  obtain ⟨hkept, hset⟩ := h y
  by_cases hy : y = x
  · subst hy
    have hlast : c'.get y = new := (hkept hgone).trans (get_set_self c y new)
    rw [get?_name_cons_self, hlast]
    constructor
    · intro hnone
      cases hnone
    · intro w hw
      cases hw
      exact hnew
  · rw [get?_name_cons_of_ne hy, ← get_set_of_ne c new hy]
    exact ⟨hkept, hset⟩

/-- **What all entries of a file come to.** Either all that are given are merged, or one of them is
refused. -/
theorem result_merge (hgiven : given.Distinct) (c : Config) :
    (∃ c' : Config, (merge c.toEntries given).result = .ok c'.toEntries ∧ MergesTo c given c') ∨
    ∃ x v e, Entries.get? (.str x.name) given = some v ∧
      (mergeValue x.name (c.get x) v).result = .error e ∧
      (merge c.toEntries given).result = .error e := by
  induction given generalizing c with
  | nil =>
    refine Or.inl ⟨c, rfl, fun x => ⟨fun _ => rfl, ?_⟩⟩
    intro v hv
    cases hv
  | cons e rest ih =>
    obtain ⟨key, v⟩ := e
    obtain ⟨hfirst, hrest⟩ := Entries.Distinct.cons_iff.1 hgiven
    cases hfound : Entries.get? key c.toEntries with
    | none =>
      simp only [MergesTo, get?_name_cons_of_unknown hfound, merge,
        result_bind_ok (result_mergeEntry_of_unknown hfound v)]
      exact ih hrest c
    | some old =>
      obtain ⟨x, rfl, -⟩ := exists_setting_of_get? hfound
      have hgone : Entries.get? (.str x.name) rest = none := Entries.get?_eq_none hfirst
      cases hnew : (mergeValue x.name (c.get x) v).result with
      | error e =>
        refine Or.inr ⟨x, v, e, get?_name_cons_self x v rest, hnew, ?_⟩
        rw [merge, result_bind, result_mergeEntry, hnew]
        rfl
      | ok new =>
        have hstep : (mergeEntry c.toEntries (.str x.name) v).result =
            .ok (c.set x new).toEntries := by
          rw [result_mergeEntry, hnew]
          rfl
        rw [merge, result_bind_ok hstep]
        rcases ih hrest (c.set x new) with ⟨c', hmerged, hvalues⟩ | ⟨y, w, e, hw, herror, hmerged⟩
        · exact Or.inl ⟨c', hmerged, hvalues.cons hgone hnew⟩
        · have hy : y ≠ x := by
            rintro rfl
            rw [hgone] at hw
            cases hw
          rw [get_set_of_ne _ _ hy] at herror
          exact Or.inr ⟨y, w, e, (get?_name_cons_of_ne hy v rest).trans hw, herror, hmerged⟩

theorem result_ofDocument_map (es : Entries) :
    (ofDocument (.map es)).result = (merge default.toEntries es).result.map ofEntries := by
  have hentries : entriesOf (.map es) = .ok es := by
    cases es <;> rfl
  rw [ofDocument, hentries, result_bind_ok (result_ofExcept _), result_bind]
  cases (merge default.toEntries es).result <;> rfl

/-! ### A whole file -/

/-- The severities of a configuration by rule. -/
def severityEntries (c : Config) : Entries := c.ruleSeverities.entries?.getD []

/-- The options of a configuration by rule. -/
def optionEntries (c : Config) : Entries := c.ruleConfigs.entries?.getD []

/-- A configuration without unknown severities, its options laid over the default ones. -/
def completed (c : Config) : Config :=
  { c with
    ruleSeverities :=
      .map (Entries.update [] (c.severityEntries.filter fun e => (severityOf? e.2).isSome))
    ruleConfigs :=
      .map (defaultOptions.update (c.optionEntries.map (overlaid defaultOptions))) }

/-- The settings have shapes that a file may give them, and no rule has options twice. -/
structure Acceptable (c : Config) : Prop where
  enabledRules : c.enabledRules.isStringList = true
  rejectSyntaxErrors : c.rejectSyntaxErrors.isFlag = true
  highlightDiagnostics : c.highlightDiagnostics.isFlag = true
  ruleSeverities : c.ruleSeverities.isMapping = true
  ruleConfigs : c.ruleConfigs.isMappingOfMappings = true
  distinct : c.optionEntries.Distinct

theorem eq_map_severityEntries (h : c.ruleSeverities.isMapping = true) :
    c.ruleSeverities = .map c.severityEntries := by
  obtain ⟨es, hes⟩ := Value.eq_map_of_isMapping h
  rw [severityEntries, hes]
  rfl

theorem eq_map_optionEntries (h : c.ruleConfigs.isMappingOfMappings = true) :
    c.ruleConfigs = .map c.optionEntries ∧ ∀ e ∈ c.optionEntries, e.2.isMapping = true := by
  rw [optionEntries]
  cases hv : c.ruleConfigs with
  | map es =>
    rw [hv, Value.isMappingOfMappings, List.all_eq_true] at h
    exact ⟨rfl, h⟩
  | _ =>
    rw [hv] at h
    cases h

theorem Acceptable.result_mergeValue (hc : c.Acceptable)
    (htold : ∀ e ∈ c.optionEntries, e.1.isShowable = true) (x : Setting) :
    (mergeValue x.name (default.get x) (c.get x)).result = .ok (c.completed.get x) := by
  cases x with
  | enabledRules =>
    rw [result_mergeValue_enabledRules]
    exact if_pos hc.enabledRules
  | rejectSyntaxErrors =>
    rw [result_mergeValue_flag rfl]
    exact if_pos hc.rejectSyntaxErrors
  | highlightDiagnostics =>
    rw [result_mergeValue_flag rfl]
    exact if_pos hc.highlightDiagnostics
  | ruleSeverities =>
    have hgiven : c.get .ruleSeverities = .map c.severityEntries :=
      eq_map_severityEntries hc.ruleSeverities
    rw [result_mergeValue_ruleSeverities, hgiven]
    exact result_mergeSeverities [] c.severityEntries
  | ruleConfigs =>
    obtain ⟨hmap, hmaps⟩ := eq_map_optionEntries hc.ruleConfigs
    exact result_mergeValue_of_fits (x := .ruleConfigs)
      ⟨Value.isSection_of_isMapping (by rw [get, hmap]; rfl),
        fun e he => ⟨htold e he, Value.isSection_of_isMapping (hmaps e he)⟩⟩ hc.distinct

theorem distinct_toEntries (c : Config) : Entries.Distinct c.toEntries :=
  List.pairwise_map.2 (show Setting.all.Pairwise fun x y =>
    (Scalar.str x.name).sameKey (.str y.name) = false by decide)

/-- **A file with every setting comes to the completed configuration**, in whatever order it lists
the settings. -/
theorem result_ofDocument (hc : c.Acceptable)
    (htold : ∀ e ∈ c.optionEntries, e.1.isShowable = true) {es : Entries}
    (hperm : es.Perm c.toEntries) : (ofDocument (.map es)).result = .ok c.completed := by
  have hdistinct : es.Distinct := (distinct_toEntries c).perm hperm.symm
  have hfound : ∀ x : Setting, Entries.get? (.str x.name) es = some (c.get x) := by
    intro x
    rw [hdistinct.get?_str_eq_some, hperm.mem_iff]
    exact List.mem_map_of_mem (by cases x <;> decide)
  rw [result_ofDocument_map]
  rcases result_merge hdistinct default with ⟨c', hmerged, hvalues⟩ | ⟨x, v, e, hv, herror, -⟩
  · have hcompleted : c' = c.completed := by
      apply ext_get
      intro x
      have hvalue := (hvalues x).2 _ (hfound x)
      rw [hc.result_mergeValue htold x] at hvalue
      exact (Except.ok.inj hvalue).symm
    rw [hmerged, hcompleted]
    show Except.ok (ofEntries c.completed.toEntries) = _
    rw [ofEntries_toEntries]
  · rw [hfound x] at hv
    cases hv
    rw [hc.result_mergeValue htold x] at herror
    cases herror

end Config

end TreeLint
