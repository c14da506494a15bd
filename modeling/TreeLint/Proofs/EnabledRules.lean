import TreeLint.Proofs.Glob
import TreeLint.Proofs.Registry

/-!
# Selecting rules by patterns

What a list of patterns selects is said rule by rule (`Registry.Selected`): the rule runs on the
file kind, and one of the patterns matches its id. Selecting is a filter on the rules of the
registry (`enabled_eq_filter`), so it keeps their order and repeats none. Neither the order of the
patterns nor a repetition has a say, as they are asked only whether one of them matches.

The shortcut for a lone star and the one for no patterns are taken into account: the search
pattern by pattern finds the same rules without them (`select?_forKind`). It takes any strings for
patterns, also some that are no texts (`enabledBy?_of_isStringList`).
-/

namespace TreeLint

namespace Value

/-- The codes of a value that is a string. -/
def codes? : Value → Option (List Nat)
  | .scalar (.str s) => some (codesOf s)
  | .scalar (.halves codes) => some codes
  | _ => none

theorem codes?_eq_some_iff {v : Value} {codes : List Nat} :
    v.codes? = some codes ↔
      (∃ s, v = .str s ∧ codesOf s = codes) ∨ v = .scalar (.halves codes) := by
  constructor
  · intro h
    unfold codes? at h
    split at h
    · exact .inl ⟨_, rfl, Option.some.inj h⟩
    · exact .inr (by rw [Option.some.inj h])
    · cases h
  · rintro (⟨s, rfl, rfl⟩ | rfl)
    · rfl
    · rfl

theorem exists_codes {v : Value} (h : v.isString = true) : ∃ codes, v.codes? = some codes := by
  unfold isString at h
  split at h
  · exact ⟨_, rfl⟩
  · exact ⟨_, rfl⟩
  · cases h

/-- The codes of the strings in a list. -/
def stringCodes : Value → List (List Nat)
  | .list xs => xs.filterMap codes?
  | _ => []

end Value

namespace Registry

/-- A rule that runs on a file kind and whose id matches one of the patterns. -/
def Selected (patterns : List String) (kind : String) (rule : Rule) : Prop :=
  kind ∈ rule.info.kinds ∧ ∃ p ∈ patterns, Glob.Matches p rule.id

instance (patterns : List String) (kind : String) (rule : Rule) :
    Decidable (Selected patterns kind rule) :=
  inferInstanceAs (Decidable (_ ∧ _))

section Selected

variable {ps qs : List String} {kind : String} {rule : Rule}

theorem selected_iff_any : Selected ps kind rule ↔
    rule.info.kinds.contains kind = true ∧ ps.any (Glob.matchesText · rule.id) = true := by
  rw [Selected, List.contains_iff_mem, List.any_eq_true]
  simp only [Glob.matchesText_iff]

/-- Only the set of the patterns counts. -/
theorem selected_congr (h : ∀ p, p ∈ ps ↔ p ∈ qs) :
    Selected ps kind rule ↔ Selected qs kind rule := by
  simp only [Selected, h]

/-- With a star among the patterns, a rule is selected by its kinds alone. -/
theorem selected_of_star (h : "*" ∈ ps) : Selected ps kind rule ↔ kind ∈ rule.info.kinds := by
  constructor
  · intro hsel
    exact hsel.1
  · intro hkind
    exact ⟨hkind, "*", h, Glob.matches_star rule.id⟩

theorem selected_append :
    Selected (ps ++ qs) kind rule ↔ Selected ps kind rule ∨ Selected qs kind rule := by
  simp only [Selected, List.mem_append, or_and_right, exists_or, and_or_left]

end Selected

theorem forKind_eq_filter (r : Registry) (kind : String) :
    r.forKind kind = r.rules.filter fun rule => kind ∈ rule.info.kinds := by
  rw [forKind]
  apply List.filter_congr
  intro rule _
  exact List.contains_eq_mem kind rule.info.kinds

/-- Going through the patterns for each rule of a kind keeps the selected rules. -/
theorem forKind_filter_any (r : Registry) (ps : List String) (kind : String) :
    ((r.forKind kind).filter fun rule => ps.any (Glob.matchesText · rule.id)) =
      r.rules.filter fun rule => Selected ps kind rule := by
  rw [forKind, List.filter_filter]
  apply List.filter_congr
  intro rule _
  rw [Bool.eq_iff_iff, Bool.and_eq_true, decide_eq_true_eq, selected_iff_any, and_comm]

/-- Selecting is a filter on the rules of the registry. -/
theorem enabled_eq_filter (r : Registry) (ps : List String) (kind : String) :
    r.enabled ps kind = r.rules.filter fun rule => Selected ps kind rule := by
  rw [enabled]
  by_cases hnil : ps = []
  · rw [if_pos hnil, eq_comm, List.filter_eq_nil_iff]
    intro rule _
    simp [Selected, hnil]
  · rw [if_neg hnil]
    by_cases hstar : ps = ["*"]
    · -- the lone star leaves the patterns out, and a star matches every id
      rw [if_pos hstar, forKind_eq_filter]
      apply List.filter_congr
      intro rule _
      rw [decide_eq_decide, selected_of_star (by simp [hstar])]
    · rw [if_neg hstar, forKind_filter_any]

/-! ### Patterns of a configuration

A pattern of a configuration may be any string, also one that is no text.
-/

section Strings

variable {ps : List Value}

theorem anyMatches?_of_strings (id : String) (h : ∀ p ∈ ps, p.isString = true) :
    anyMatches? id ps =
      some ((ps.filterMap Value.codes?).any (Glob.matchesCodes · (codesOf id))) := by
  induction ps with
  | nil => rfl
  | cons p ps ih =>
    have hrest := ih fun q hq => h q (List.mem_cons_of_mem _ hq)
    obtain ⟨codes, hcodes⟩ := Value.exists_codes (h p List.mem_cons_self)
    have hstep : anyMatches? id (p :: ps) =
        if Glob.matchesCodes codes (codesOf id) then some true else anyMatches? id ps := by
      obtain ⟨t, rfl, rfl⟩ | rfl := Value.codes?_eq_some_iff.1 hcodes
      · rfl
      · rfl
    rw [hstep, hrest, List.filterMap_cons_some hcodes, List.any_cons]
    cases Glob.matchesCodes codes (codesOf id) <;> rfl

theorem select?_of_strings (h : ∀ p ∈ ps, p.isString = true) (rules : List Rule) :
    select? ps rules = some (rules.filter fun rule =>
      (ps.filterMap Value.codes?).any (Glob.matchesCodes · (codesOf rule.id))) := by
  induction rules with
  | nil => rfl
  | cons rule rest ih =>
    simp only [select?, anyMatches?_of_strings _ h, ih, List.filter_cons]
    rfl

/-- A list of strings selects the rules of the kind whose ids match one of them. -/
theorem enabledBy?_of_isStringList (r : Registry) {v : Value} (h : v.isStringList = true)
    (kind : String) :
    r.enabledBy? v kind = some ((r.forKind kind).filter fun rule =>
      v.stringCodes.any (Glob.matchesCodes · (codesOf rule.id))) := by
  cases v with
  | list ps =>
    have hselect := select?_of_strings (List.all_eq_true.1 h) (r.forKind kind)
    cases ps with
    | nil => exact congrArg some (List.filter_false _).symm
    | cons p ps => exact hselect
  | _ => cases h

end Strings

theorem stringCodes_texts (ps : List String) :
    (Value.list (ps.map Value.str)).stringCodes = ps.map codesOf := by
  rw [Value.stringCodes, List.filterMap_map, ← List.filterMap_eq_map]
  rfl

theorem isString_of_mem_texts (ps : List String) :
    ∀ p ∈ ps.map Value.str, p.isString = true := by
  rw [List.forall_mem_map]
  exact fun _ _ => rfl

/-- A list of texts selects as its texts do. -/
theorem select?_strings (ps : List String) (rules : List Rule) :
    select? (ps.map Value.str) rules =
      some (rules.filter fun rule => ps.any (Glob.matchesText · rule.id)) := by
  have hcodes : (ps.map Value.str).filterMap Value.codes? = ps.map codesOf := stringCodes_texts ps
  rw [select?_of_strings (isString_of_mem_texts ps), hcodes]
  simp only [List.any_map]
  rfl

/-- The search pattern by pattern has no shortcuts, and finds the same rules. -/
theorem select?_forKind (r : Registry) (ps : List String) (kind : String) :
    select? (ps.map Value.str) (r.forKind kind) = some (r.enabled ps kind) := by
  rw [select?_strings, forKind_filter_any, enabled_eq_filter]

theorem enabledBy?_strings (r : Registry) (ps : List String) (kind : String) :
    r.enabledBy? (.list (ps.map Value.str)) kind = some (r.enabled ps kind) := by
  have hlist : (Value.list (ps.map Value.str)).isStringList = true :=
    List.all_eq_true.2 (isString_of_mem_texts ps)
  rw [enabledBy?_of_isStringList r hlist, stringCodes_texts, enabled_eq_filter,
    ← forKind_filter_any]
  simp only [List.any_map]
  rfl

/-- **Selecting rules by patterns is a filter.** Of the rules of a registry it keeps exactly those
that run on the file kind and whose id matches one of the patterns, each once and in the order of
the registry. The order of the patterns and their repetitions do not matter. The search without
shortcuts finds the same rules, also for patterns out of a configuration; with a star among the
patterns these are all rules of the kind. Patterns put together select what one part or the other
selects. -/
theorem enabled_exact {r : Registry} (hr : r.Arises) (kind : String) :
    (∀ ps, r.enabled ps kind = r.rules.filter fun rule => Selected ps kind rule) ∧
    (∀ ps, ((r.enabled ps kind).map Rule.id).Nodup) ∧
    (∀ ps qs, (∀ p, p ∈ ps ↔ p ∈ qs) → r.enabled ps kind = r.enabled qs kind) ∧
    (∀ ps, select? (ps.map Value.str) (r.forKind kind) = some (r.enabled ps kind)) ∧
    (∀ ps, r.enabledBy? (.list (ps.map Value.str)) kind = some (r.enabled ps kind)) ∧
    (∀ ps, "*" ∈ ps → r.enabled ps kind = r.forKind kind) ∧
    (∀ ps qs rule, rule ∈ r.enabled (ps ++ qs) kind ↔
      rule ∈ r.enabled ps kind ∨ rule ∈ r.enabled qs kind) := by
  refine ⟨fun ps => r.enabled_eq_filter ps kind, ?once, ?sameSet,
    fun ps => r.select?_forKind ps kind, fun ps => r.enabledBy?_strings ps kind, ?star, ?together⟩
  case once =>
    intro ps
    rw [enabled_eq_filter]
    exact hr.nodup_ids.sublist (List.filter_sublist.map Rule.id)
  case sameSet =>
    intro ps qs h
    rw [enabled_eq_filter, enabled_eq_filter]
    apply List.filter_congr
    intro rule _
    rw [decide_eq_decide, selected_congr h]
  case star =>
    intro ps h
    rw [enabled_eq_filter, forKind_eq_filter]
    apply List.filter_congr
    intro rule _
    rw [decide_eq_decide, selected_of_star h]
  case together =>
    intro ps qs rule
    simp only [enabled_eq_filter, List.mem_filter, decide_eq_true_eq, selected_append, and_or_left]

/-- Of the built-in rules for `.ts`, one pattern by category and one by name select three, in the
order of the rules. Asking twice and in another order changes nothing, and a star takes all. -/
theorem switchPatterns_enabled :
    (builtIn.enabled ["switch.*", "types.no_any", "switch.*"] "ts").map Rule.id =
      ["types.no_any", "switch.missing_default", "switch.duplicate_case"] ∧
    builtIn.enabled ["types.no_any", "switch.*"] "ts" =
      builtIn.enabled ["switch.*", "types.no_any", "switch.*"] "ts" ∧
    builtIn.enabled ["switch.*", "*"] "ts" = builtIn.forKind "ts" := by
  have hr : builtIn.Arises := .ofRules builtInRules
  obtain ⟨hfilter, -, hset, -, -, hstar, -⟩ := enabled_exact hr "ts"
  have hsame : ∀ p, p ∈ ["types.no_any", "switch.*"] ↔
      p ∈ ["switch.*", "types.no_any", "switch.*"] := by
    intro p
    simp only [List.mem_cons, List.not_mem_nil, or_false]
    grind
  refine ⟨?_, hset _ _ hsame, hstar _ (by decide)⟩
  have hselected : ∀ rule, Selected ["switch.*", "types.no_any", "switch.*"] "ts" rule ↔
      "ts" ∈ rule.info.kinds ∧
        ("switch.".toList <+: rule.id.toList ∨ rule.id = "types.no_any") := by
    intro rule
    have hcategory : Glob.Matches "switch.*" rule.id ↔ "switch.".toList <+: rule.id.toList :=
      Glob.matches_plain_star "switch." (by decide)
    have hname : Glob.Matches "types.no_any" rule.id ↔ rule.id = "types.no_any" :=
      Glob.matches_plain (by decide)
    simp only [Selected, List.mem_cons, List.not_mem_nil, or_false, exists_eq_or_imp,
      exists_eq_left, hcategory, hname]
    grind
  rw [hfilter, rules_builtIn]
  simp only [hselected]
  decide

end Registry

end TreeLint
