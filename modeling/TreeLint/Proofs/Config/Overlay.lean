import TreeLint.Proofs.Config.Normal
import TreeLint.Proofs.Value.Reordered

/-!
# Files over the defaults

A file is laid over the default configuration as a whole or not at all.

* It is refused if it gives one of its settings a value of a wrong shape (`Misshapen`), and also if
  it gives options to a rule that it names by too long a number (`NamesLongRule`), which is no wrong
  shape. Then the default configuration is loaded, whatever else the file says.
* Otherwise each setting is what the file says about it, laid over the default one
  (`result_merge_default`).
* The order of entries does not count, neither in the file nor in the mappings inside it
  (`Fits.of_reordered`, `settled_reordered`).

The main statement is `merge_exact`.
-/

namespace TreeLint

namespace Config

open Attempt Value

variable {m m' : Entries}

/-- What a file says about a setting. -/
def given? (m : Entries) (x : Setting) : Option Value := Entries.get? (.str x.name) m

/-- What a file says in a section, nothing if the section is missing or no mapping. -/
def sectionOf (m : Entries) (x : Setting) : Entries := ((given? m x).bind Value.entries?).getD []

/-! ### What is refused -/

/-- A file with a value of a wrong shape. -/
inductive Misshapen (m : Entries) : Prop
  /-- The patterns of enabled rules are no list of strings. -/
  | patterns (v : Value) (h : given? m .enabledRules = some v) (hv : ¬v.isStringList = true)
  /-- A flag is neither true nor false. -/
  | flag (x : Setting) (hx : isCollection x = false) (v : Value) (h : given? m x = some v)
    (hv : ¬v.isFlag = true)
  /-- The severities are neither null nor a mapping. -/
  | severities (v : Value) (h : given? m .ruleSeverities = some v) (hv : ¬v.isSection = true)
  /-- The options are neither null nor a mapping. -/
  | configs (v : Value) (h : given? m .ruleConfigs = some v) (hv : ¬v.isSection = true)
  /-- The options of a rule are neither null nor a mapping. -/
  | options (e : Scalar × Value) (h : e ∈ sectionOf m .ruleConfigs) (hv : ¬e.2.isSection = true)

/-- A file that gives options to a rule named by too long a number. -/
def NamesLongRule (m : Entries) : Prop :=
  ∃ e ∈ sectionOf m .ruleConfigs, ¬e.1.isShowable = true

theorem sectionOf_of_given? {x : Setting} {v : Value} (h : given? m x = some v) :
    sectionOf m x = v.entries?.getD [] := by
  rw [sectionOf, h]
  rfl

theorem given?_of_mem_sectionOf {x : Setting} {e : Scalar × Value} (h : e ∈ sectionOf m x) :
    ∃ v, given? m x = some v ∧ e ∈ v.entries?.getD [] := by
  cases hv : given? m x with
  | none =>
    rw [sectionOf, hv] at h
    cases h
  | some v =>
    rw [sectionOf_of_given? hv] at h
    exact ⟨v, rfl, h⟩

/-- **A value that does not fit** has a wrong shape or names a rule by too long a number. -/
theorem exists_not_fits_iff :
    (∃ x v, given? m x = some v ∧ ¬Fits x v) ↔ Misshapen m ∨ NamesLongRule m := by
  constructor
  · intro ⟨x, v, hv, hfits⟩
    cases x with
    | enabledRules => exact Or.inl (.patterns v hv hfits)
    | rejectSyntaxErrors => exact Or.inl (.flag _ rfl v hv hfits)
    | highlightDiagnostics => exact Or.inl (.flag _ rfl v hv hfits)
    | ruleSeverities => exact Or.inl (.severities v hv hfits)
    | ruleConfigs =>
      by_cases hsection : v.isSection = true
      · obtain ⟨e, he, hgives⟩ : ∃ e ∈ sectionOf m .ruleConfigs, ¬GivesOptions e := by
          by_contra hall
          rw [sectionOf_of_given? hv] at hall
          exact hfits ⟨hsection, fun e he => by_contra fun hgives => hall ⟨e, he, hgives⟩⟩
        by_cases htold : e.1.isShowable = true
        · exact Or.inl (.options e he fun hs => hgives ⟨htold, hs⟩)
        · exact Or.inr ⟨e, he, htold⟩
      · exact Or.inl (.configs v hv hsection)
  · rintro (hshape | ⟨e, he, htold⟩)
    · cases hshape with
      | patterns v hv hshape => exact ⟨_, v, hv, hshape⟩
      | flag x hx v hv hshape =>
        cases x with
        | rejectSyntaxErrors => exact ⟨_, v, hv, hshape⟩
        | highlightDiagnostics => exact ⟨_, v, hv, hshape⟩
        | _ => cases hx
      | severities v hv hshape => exact ⟨_, v, hv, hshape⟩
      | configs v hv hshape =>
        exact ⟨_, v, hv, fun hfits => hshape hfits.1⟩
      | options e he hshape =>
        obtain ⟨v, hv, hmem⟩ := given?_of_mem_sectionOf he
        exact ⟨_, v, hv, fun hfits => hshape (hfits.2 e hmem).isSection⟩
    · obtain ⟨v, hv, hmem⟩ := given?_of_mem_sectionOf he
      exact ⟨_, v, hv, fun hfits => htold (hfits.2 e hmem).told⟩

/-! ### What a file comes to -/

theorem wellKeyed_given (hm : (Value.map m).WellKeyed) {x : Setting} {v : Value}
    (hv : given? m x = some v) : v.WellKeyed := by
  obtain ⟨k, hmem, -⟩ := Entries.exists_key_of_get? hv
  exact hm.entries.2 _ hmem

theorem wellKeyed_sectionOf (hm : (Value.map m).WellKeyed) (x : Setting) :
    (sectionOf m x).Distinct ∧ ∀ e ∈ sectionOf m x, e.2.WellKeyed := by
  cases hv : given? m x with
  | none =>
    rw [sectionOf, hv]
    exact WellKeyed.entries (.scalar .null)
  | some v =>
    rw [sectionOf_of_given? hv]
    exact (wellKeyed_given hm hv).entries

/-- **A file is refused, or all that it says is taken over.** -/
theorem result_merge_default (hm : (Value.map m).WellKeyed) :
    (∃ c : Config, (merge default.toEntries m).result = .ok c.toEntries ∧
      (∀ x v, given? m x = some v → Fits x v) ∧
      ∀ x, c.get x = (given? m x).elim (default.get x) (settled x)) ∨
    ∃ e, (merge default.toEntries m).result = .error e ∧ e.blamesFile = true ∧
      ∃ x v, given? m x = some v ∧ ¬Fits x v := by
  have htaken : ∀ x v, given? m x = some v → Fits x v →
      (mergeValue x.name (default.get x) v).result = .ok (settled x v) := fun x v hv hfits =>
    result_mergeValue_of_fits hfits (wellKeyed_given hm hv).entries.1
  rcases result_merge hm.entries.1 default with
    ⟨c, hmerged, hvalues⟩ | ⟨x, v, e, hv, herror, hmerged⟩
  · have hfits : ∀ x v, given? m x = some v → Fits x v := by
      intro x v hv
      by_contra hfits
      obtain ⟨e, herror, -⟩ := exists_refusal_of_not_fits hfits
      rw [(hvalues x).2 v hv] at herror
      cases herror
    refine Or.inl ⟨c, hmerged, hfits, ?_⟩
    intro x
    cases hv : given? m x with
    | none => exact (hvalues x).1 hv
    | some v =>
      have hvalue := (hvalues x).2 v hv
      rw [htaken x v hv (hfits x v hv)] at hvalue
      exact (Except.ok.inj hvalue).symm
  · have hfits : ¬Fits x v := by
      intro hfits
      rw [htaken x v hv hfits] at herror
      cases herror
    obtain ⟨e', herror', hblame⟩ := exists_refusal_of_not_fits hfits
    obtain rfl : e' = e := Except.error.inj (herror'.symm.trans herror)
    exact Or.inr ⟨e', hmerged, hblame, x, v, hv, hfits⟩

/-- The known severities are `error` and `warning`. -/
theorem isSome_severityOf?_iff {v : Value} :
    (severityOf? v).isSome = true ↔ v = .str "error" ∨ v = .str "warning" := by
  have hname : ∀ s : String, (Severity.ofName? s).isSome = true ↔ s = "error" ∨ s = "warning" := by
    intro s
    unfold Severity.ofName?
    split <;> simp_all
  cases v with
  | scalar a =>
    cases a with
    | str s => exact (hname s).trans (by simp [Value.str])
    | _ => simp [severityOf?, str?, Value.str]
  | _ => simp [severityOf?, str?, Value.str]

/-! ### The order of entries -/

section

variable {v w : Value} (h : Reordered v w)

include h

theorem isSection_of_reordered : v.isSection = w.isSection := by
  induction h with
  | trans _ _ ih ih' => exact ih.trans ih'
  | _ => rfl

/-- **What a setting may be given does not depend on the order of entries**, -/
theorem Fits.of_reordered {x : Setting} (hfits : Fits x v) : Fits x w := by
  cases x with
  | enabledRules => exact h.isStringList_eq.symm.trans hfits
  | rejectSyntaxErrors => exact h.isFlag_eq.symm.trans hfits
  | highlightDiagnostics => exact h.isFlag_eq.symm.trans hfits
  | ruleSeverities => exact (isSection_of_reordered h).symm.trans hfits
  | ruleConfigs =>
    refine ⟨(isSection_of_reordered h).symm.trans hfits.1, ?_⟩
    intro e' he'
    obtain ⟨e, he, hkey, hvalue⟩ := h.entries_reorder.exists_left he'
    have hgives := hfits.2 e he
    exact ⟨hkey ▸ hgives.told, (isSection_of_reordered hvalue).symm.trans hgives.isSection⟩

/-- and what it comes to does so in its order of entries alone. -/
theorem settled_reordered (hv : v.WellKeyed) (x : Setting) :
    Reordered (settled x v) (settled x w) := by
  obtain ⟨hdistinct, hvalues⟩ := hv.entries
  cases x with
  | enabledRules => exact h
  | rejectSyntaxErrors => exact h
  | highlightDiagnostics => exact h
  | ruleSeverities =>
    apply Reordered.of_reorders
    apply Entries.Reorders.update
    · apply h.entries_reorder.filter
      intro a b _ hab
      rw [severityOf?, severityOf?, hab.str?_eq]
    · exact List.Pairwise.nil
    · exact List.Pairwise.filter _ hdistinct
    · intro b hb
      cases hb
  | ruleConfigs =>
    apply Reordered.of_reorders
    apply Entries.Reorders.update
    · apply h.entries_reorder.map
      intro a ha b hkey hab
      refine ⟨hkey, .of_reorders ?_⟩
      rw [← hkey]
      apply hab.entries_reorder.update (distinct_optionsAt nested_defaultOptions a.1)
        (hvalues a ha).entries.1
      exact Entries.aligned_of_names (names_optionsAt_default a.1) _
    · exact nested_defaultOptions.distinct
    · exact distinct_overlaid hdistinct
    · exact Entries.aligned_of_names names_defaultOptions _

end

theorem given?_reordered (hm : (Value.map m).WellKeyed)
    (h : Reordered (.map m) (.map m')) (x : Setting) :
    Option.Rel Reordered (given? m x) (given? m' x) :=
  h.entries_reorder.get?_str hm.entries.1 x.name

/-- **The order of entries does not count.** A file in another order is refused as well, or comes to
the same data. -/
theorem result_merge_reordered (hm : (Value.map m).WellKeyed)
    (h : Reordered (.map m) (.map m')) {merged : Entries}
    (hmerged : (merge default.toEntries m).result = .ok merged) :
    ∃ merged', (merge default.toEntries m').result = .ok merged' ∧
      Reordered (.map merged) (.map merged') := by
  have hm' := h.wellKeyed hm
  rcases result_merge_default hm with ⟨c, hc, hfits, hget⟩ | ⟨e, he, -⟩
  · rcases result_merge_default hm' with ⟨c', hc', -, hget'⟩ | ⟨-, -, -, x, w, hw, hnot⟩
    · obtain rfl : c.toEntries = merged := Except.ok.inj (hc.symm.trans hmerged)
      refine ⟨c'.toEntries, hc', .of_reorders ⟨c'.toEntries, ?_, List.Perm.refl _⟩⟩
      rw [toEntries, toEntries, List.forall₂_map_left_iff, List.forall₂_map_right_iff,
        List.forall₂_same]
      intro x _
      refine ⟨rfl, ?_⟩
      have hrel := given?_reordered hm h x
      rw [hget, hget']
      generalize hv : given? m x = v at hrel
      generalize given? m' x = w at hrel
      cases hrel with
      | none => exact .refl _
      | some hvalue => exact settled_reordered hvalue (wellKeyed_given hm hv) x
    · -- what does not fit there did not fit here
      exfalso
      have hrel := given?_reordered hm h x
      rw [hw] at hrel
      generalize hv : given? m x = v at hrel
      cases hrel with
      | some hvalue => exact hnot ((hfits x _ hv).of_reordered hvalue)
  · rw [he] at hmerged
    cases hmerged

theorem refused_of_reordered (hm : (Value.map m).WellKeyed)
    (h : Reordered (.map m) (.map m'))
    (hrefused : ∃ e, (merge default.toEntries m).result = .error e) :
    ∃ e, (merge default.toEntries m').result = .error e := by
  cases hmerged : (merge default.toEntries m').result with
  | error e => exact ⟨e, rfl⟩
  | ok merged' =>
    obtain ⟨e, he⟩ := hrefused
    obtain ⟨merged, hback, -⟩ := result_merge_reordered (h.wellKeyed hm) h.symm hmerged
    rw [he] at hback
    cases hback

/-! ### The whole statement -/

/-- The file that a path leads to has these entries for a library. -/
def IsFileWith (codec : Codec) (d : Disk) (path : String) (m : Entries) : Prop :=
  ∃ p content, d.find? path = some p ∧ d.get? p = some (.file content) ∧
    codec.read content.toList = .ok (.map m)

theorem result_load_of_isFileWith {codec : Codec} {d : Disk} {path : String}
    (h : IsFileWith codec d path m) :
    (load codec d (some path)).result =
      match (merge default.toEntries m).result with
      | .ok merged => .ok (ofEntries merged)
      | .error _ => .ok default := by
  obtain ⟨p, content, hfind, hget, hread⟩ := h
  simp only [load, Option.bind_some, hfind, hget]
  rw [result_orDefault, result_ofContent hread, result_ofDocument_map]
  cases (merge default.toEntries m).result <;> rfl

/-- What the settings of a configuration are when a file is laid over the default one. -/
structure LaidOver (m merged : Entries) : Prop where
  keys : merged.map Prod.fst = Setting.all.map fun x => .str x.name
  plain : ∀ x ∈ [Setting.enabledRules, .rejectSyntaxErrors, .highlightDiagnostics],
    given? merged x = some ((given? m x).getD (default.get x))
  severities : given? merged .ruleSeverities =
    some (.map ((sectionOf m .ruleSeverities).filter fun e =>
      e.2 = .str "error" ∨ e.2 = .str "warning"))
  options : ∃ es, given? merged .ruleConfigs = some (.map es) ∧ ∀ ruleId name : Scalar,
    Entries.get? name (optionsAt es ruleId) =
      (Entries.get? name (optionsAt (sectionOf m .ruleConfigs) ruleId)).or
        (Entries.get? name (optionsAt defaultOptions ruleId))

theorem distinct_optionsAt_sectionOf (hm : (Value.map m).WellKeyed) (x : Setting)
    (ruleId : Scalar) : (optionsAt (sectionOf m x) ruleId).Distinct := by
  rw [optionsAt]
  cases hfound : Entries.get? ruleId (sectionOf m x) with
  | none => exact List.Pairwise.nil
  | some v =>
    obtain ⟨k, hmem, -⟩ := Entries.exists_key_of_get? hfound
    exact ((wellKeyed_sectionOf hm x).2 _ hmem).entries.1

theorem laidOver_of_get (hm : (Value.map m).WellKeyed) {c : Config}
    (hget : ∀ x, c.get x = (given? m x).elim (default.get x) (settled x)) :
    LaidOver m c.toEntries where
  keys := by
    rw [toEntries, List.map_map]
    rfl
  plain := by
    intro x hx
    have hplain : ∀ v, settled x v = v := by
      intro v
      cases x with
      | ruleSeverities => simp at hx
      | ruleConfigs => simp at hx
      | _ => rfl
    rw [given?, get?_toEntries, hget]
    cases given? m x with
    | none => rfl
    | some v => exact congrArg some (hplain v)
  severities := by
    have hsettled : c.get .ruleSeverities = .map (Entries.update []
        ((sectionOf m .ruleSeverities).filter fun e => (severityOf? e.2).isSome)) := by
      rw [hget, sectionOf]
      cases given? m .ruleSeverities <;> rfl
    have hknown : Entries.Distinct
        ((sectionOf m .ruleSeverities).filter fun e => (severityOf? e.2).isSome) :=
      List.Pairwise.filter _ (wellKeyed_sectionOf hm _).1
    rw [given?, get?_toEntries, hsettled, Entries.update_of_new hknown (by simp), List.nil_append]
    congr 3
    funext e
    rw [Bool.eq_iff_iff, isSome_severityOf?_iff, decide_eq_true_eq]
  options := by
    have hsettled : c.get .ruleConfigs = .map (defaultOptions.update
        ((sectionOf m .ruleConfigs).map (overlaid defaultOptions))) := by
      rw [hget, sectionOf]
      cases given? m .ruleConfigs <;> rfl
    refine ⟨defaultOptions.update ((sectionOf m .ruleConfigs).map (overlaid defaultOptions)),
      ?_, ?_⟩
    · rw [given?, get?_toEntries, hsettled]
    · intro ruleId name
      rw [optionsAt_update_overlaid (wellKeyed_sectionOf hm _).1,
        Entries.get?_update_of_names (names_optionsAt_default ruleId)
          (distinct_optionsAt_sectionOf hm _ ruleId)]

/-- **Merging is exact, all or nothing, and free of order.** Let no mapping in a file have a key
twice.

* The file is refused exactly if it gives a setting a value of a wrong shape or names a rule by too
  long a number. The file is to blame, never the defaults, and what is loaded from it is the default
  configuration.
* Otherwise all settings are laid over the default ones, and this is what is loaded.
  Neither depends on the library that reads the file.
* A file in another order, of its entries or of those in its mappings, is refused as well or comes
  to the same data. -/
theorem merge_exact (hm : (Value.map m).WellKeyed) :
    ((∃ e, (merge default.toEntries m).result = .error e) ↔ Misshapen m ∨ NamesLongRule m) ∧
    (∀ e, (merge default.toEntries m).result = .error e → e.blamesFile = true ∧
      ∀ codec d path, IsFileWith codec d path m →
        (load codec d (some path)).result = .ok default) ∧
    (∀ merged, (merge default.toEntries m).result = .ok merged → LaidOver m merged ∧
      ∀ codec d path, IsFileWith codec d path m →
        (load codec d (some path)).result = .ok (ofEntries merged)) ∧
    ∀ m', Reordered (.map m) (.map m') →
      ((∃ e, (merge default.toEntries m').result = .error e) ↔
        ∃ e, (merge default.toEntries m).result = .error e) ∧
      ∀ merged, (merge default.toEntries m).result = .ok merged →
        ∃ merged', (merge default.toEntries m').result = .ok merged' ∧
          Reordered (.map merged) (.map merged') := by
  refine ⟨?_, ?_, ?_, ?_⟩
  · rw [← exists_not_fits_iff]
    rcases result_merge_default hm with ⟨c, hc, hfits, -⟩ | ⟨e, he, -, hnot⟩
    · rw [hc]
      refine ⟨fun ⟨e, he⟩ => (by cases he), fun ⟨x, v, hv, hnot⟩ => ?_⟩
      exact absurd (hfits x v hv) hnot
    · exact ⟨fun _ => hnot, fun _ => ⟨e, he⟩⟩
  · intro e he
    constructor
    · rcases result_merge_default hm with ⟨c, hc, -⟩ | ⟨e', he', hblame, -⟩
      · rw [hc] at he
        cases he
      · rw [he'] at he
        cases he
        exact hblame
    · intro codec d path hfile
      rw [result_load_of_isFileWith hfile, he]
  · intro merged hmerged
    constructor
    · rcases result_merge_default hm with ⟨c, hc, -, hget⟩ | ⟨e, he, -⟩
      · obtain rfl : c.toEntries = merged := Except.ok.inj (hc.symm.trans hmerged)
        exact laidOver_of_get hm hget
      · rw [he] at hmerged
        cases hmerged
    · intro codec d path hfile
      rw [result_load_of_isFileWith hfile, hmerged]
  · intro m' hm'
    exact ⟨⟨refused_of_reordered (hm'.wellKeyed hm) hm'.symm, refused_of_reordered hm hm'⟩,
      fun merged => result_merge_reordered hm hm'⟩

/-- A file with a pattern, and options for a rule that it names by a number of 4301 digits. -/
def longRuleFile : Entries :=
  [(.str "enabled_rules", .list [.str "switch.*"]),
    (.str "rule_configs", .map [(.int (Nat.pow 10 4300 : Nat), .map [])])]

/-- A file with an unknown key, an unknown severity, and an option of one rule. -/
def partialFile : Entries :=
  [(.str "rule_configs", .object [("naming.handler_prefix", .object [("prefix", .str "on")])]),
    (.str "colour", .bool true),
    (.str "rule_severities", .object [("a", .str "loud"), ("b", .str "warning")])]

theorem wellKeyed_longRuleFile : (Value.map longRuleFile).WellKeyed := by
  refine .map _ (List.pairwise_pair.2 rfl) ?_
  intro e he
  simp only [longRuleFile, List.mem_cons, List.not_mem_nil, or_false] at he
  rcases he with rfl | rfl
  · exact .list _ fun v hv => List.mem_singleton.1 hv ▸ .scalar _
  · refine .map _ (List.pairwise_singleton _ _) fun e he => ?_
    rw [List.mem_singleton.1 he]
    exact .map _ List.Pairwise.nil fun e he => by cases he

theorem wellKeyed_partialFile : (Value.map partialFile).WellKeyed := by
  have hprefix : (Value.object [("prefix", .str "on")]).WellKeyed :=
    .object (by decide) (List.forall_mem_singleton.2 (.scalar _))
  have hconfigs : (Value.object
      [("naming.handler_prefix", .object [("prefix", .str "on")])]).WellKeyed :=
    .object (by decide) (List.forall_mem_singleton.2 hprefix)
  have hseverities : (Value.object [("a", .str "loud"), ("b", .str "warning")]).WellKeyed :=
    .object (by decide) (by simp [Value.str, WellKeyed.scalar])
  have hfile : (Value.object [("rule_configs", .object
      [("naming.handler_prefix", .object [("prefix", .str "on")])]), ("colour", .bool true),
      ("rule_severities", .object [("a", .str "loud"), ("b", .str "warning")])]).WellKeyed :=
    .object (by decide) (by simp [hconfigs, hseverities, Value.bool, WellKeyed.scalar])
  exact hfile

/-- The long number alone refuses a file whose values all have the right shape. A file with unknown
names is taken over, from the last entry to the first as well. -/
theorem longRuleFile_refused :
    (¬Misshapen longRuleFile ∧ ∃ e, (merge default.toEntries longRuleFile).result = .error e) ∧
    ∃ merged merged', (merge default.toEntries partialFile).result = .ok merged ∧
      LaidOver partialFile merged ∧
      (merge default.toEntries partialFile.reverse).result = .ok merged' ∧
      Reordered (.map merged) (.map merged') := by
  have hgiven : given? longRuleFile .ruleConfigs =
      some (.map [(.int (Nat.pow 10 4300 : Nat), .map [])]) := rfl
  have hlong : NamesLongRule longRuleFile := by
    refine ⟨(.int (Nat.pow 10 4300 : Nat), .map []), ?_, ?_⟩
    · rw [sectionOf_of_given? hgiven]
      exact List.mem_singleton_self _
    · rw [Scalar.isShowable, isShort, Int.natAbs_natCast, decide_eq_true_eq]
      exact Nat.lt_irrefl _
  obtain ⟨hrefused, -, -, -⟩ := merge_exact wellKeyed_longRuleFile
  obtain ⟨-, -, htaken, horder⟩ := merge_exact wellKeyed_partialFile
  refine ⟨⟨?_, hrefused.2 (Or.inr hlong)⟩, ?_⟩
  · intro hshape
    cases hshape with
    | patterns v h hv =>
      cases h
      exact hv rfl
    | flag x hx v h hv =>
      cases x with
      | rejectSyntaxErrors => cases h
      | highlightDiagnostics => cases h
      | _ => cases hx
    | severities v h hv => cases h
    | configs v h hv =>
      cases hgiven.symm.trans h
      exact hv rfl
    | options e h hv =>
      rw [sectionOf_of_given? hgiven] at h
      rw [List.mem_singleton.1 h] at hv
      exact hv rfl
  · obtain ⟨hlaid, -⟩ := htaken _ rfl
    obtain ⟨-, hsame⟩ := horder _ (.perm (List.reverse_perm _).symm)
    obtain ⟨merged', hmerged', hreordered⟩ := hsame _ rfl
    exact ⟨_, merged', rfl, hlaid, hmerged', hreordered⟩

end Config

end TreeLint
