import TreeLint.Proofs.Engine.Contribution
import TreeLint.Rule.BuiltIn

/-!
# The options that rules read

A built-in rule looks at few options, each with a value of its own for the case that the option
is not given. The default configuration lists options with values as well. The two agree: a visit
depends on the options of the default configuration alone, and an option that is not given counts
as if it had the value there (`reads_builtIn`).
-/

namespace TreeLint

/-- Two sets of options give each of the listed options the same value, the listed one if it is
not given. -/
def Options.Agree (defaults o o' : Options) : Prop :=
  ∀ p ∈ defaults, (Entries.get? p.1 o).getD p.2 = (Entries.get? p.1 o').getD p.2

/-- A rule reads no options but the listed ones, with the listed values for those not given. -/
def Rule.Reads (rule : Rule) (defaults : Options) : Prop :=
  ∀ s o o', defaults.Agree o o' → rule.visit s o = rule.visit s o'

theorem Options.Agree.get_eq {defaults o o' : Options} (h : defaults.Agree o o') {name : String}
    {value : Value} (hmem : (.str name, value) ∈ defaults) :
    Options.get o name value = Options.get o' name value := h _ hmem

theorem MissingReturnType.reads :
    MissingReturnType.rule.Reads [(.str "scope_returns_to_body", .bool false)] := by
  intro s o o' h
  have hoption := h.get_eq List.mem_cons_self
  simp only [MissingReturnType.rule, Rule.ofOutputs, hoption]

theorem FolderImport.reads :
    FolderImport.rule.Reads [(.str "skip_suffixes", .list [.str ".scss"])] := by
  intro s o o' h
  have hoption := h.get_eq List.mem_cons_self
  simp only [FolderImport.rule, Rule.ofOutputs, FolderImport.defaultSuffixes, hoption]

theorem HandlerName.visit_eq_of_given {s : Source} {o o' : Options}
    (h : HandlerName.given o = HandlerName.given o') :
    HandlerName.rule.visit s o = HandlerName.rule.visit s o' := by
  have hstem : HandlerName.stem o = HandlerName.stem o' := by
    rw [HandlerName.stem, HandlerName.stem, h]
  simp only [HandlerName.rule, Rule.ofOutputs, hstem]

theorem HandlerName.reads : HandlerName.rule.Reads [(.str "prefix", .str "handle")] :=
  fun _ _ _ h => HandlerName.visit_eq_of_given (h.get_eq List.mem_cons_self)

theorem ListKey.reads : ListKey.rule.Reads [(.str "inspect_expression_bodies", .bool true)] := by
  intro s o o' h
  have hoption := h.get_eq List.mem_cons_self
  simp only [ListKey.rule, Rule.ofOutputs, hoption]

/-- **The default configuration lists what the built-in rules read**, with the values that they
take for options not given. -/
theorem reads_builtIn : ∀ rule ∈ builtInRules, rule.Reads (Config.default.optionsFor rule.id) := by
  have hnone : ∀ {rule : Rule} {defaults : Options},
      (∀ s o o', rule.visit s o = rule.visit s o') → rule.Reads defaults :=
    fun h s o o' _ => h s o o'
  simp only [builtInRules, List.forall_mem_cons]
  exact ⟨hnone fun _ _ _ => rfl, MissingReturnType.reads, hnone fun _ _ _ => rfl,
    FolderImport.reads, HandlerName.reads, hnone fun _ _ _ => rfl, hnone fun _ _ _ => rfl,
    ListKey.reads, by simp⟩

/-- The options in the default configuration have names. -/
theorem exists_name_of_mem_default : ∀ rule ∈ builtInRules,
    ∀ p ∈ Config.default.optionsFor rule.id, ∃ name, p.1 = .str name := by
  have hnames : ∀ rule ∈ builtInRules,
      (Config.default.optionsFor rule.id).all (fun p => (Value.scalar p.1).str?.isSome) = true := by
    decide
  intro rule hrule p hp
  obtain ⟨name, hname⟩ := Option.isSome_iff_exists.1 (List.all_eq_true.1 (hnames rule hrule) p hp)
  cases hkey : p.1 <;> rw [hkey] at hname <;> cases hname
  exact ⟨name, rfl⟩

end TreeLint
