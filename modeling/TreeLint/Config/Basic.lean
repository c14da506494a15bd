import TreeLint.Analysis

/-!
# Configurations

A configuration selects rules, sets two flags, and holds severities and options by rule. A host
may put any value into any of its five settings, so they are kept as values and looked at when
they are needed; a setting of a shape that cannot be used ends the work that needs it
(`ConfigError`).
-/

namespace TreeLint

/-- A setting of a configuration. -/
inductive Setting where
  | enabledRules
  | rejectSyntaxErrors
  | highlightDiagnostics
  | ruleSeverities
  | ruleConfigs
deriving DecidableEq, Repr

namespace Setting

/-- All settings. -/
def all : List Setting :=
  [.enabledRules, .rejectSyntaxErrors, .highlightDiagnostics, .ruleSeverities, .ruleConfigs]

/-- The name of a setting. -/
def name : Setting → String
  | .enabledRules => "enabled_rules"
  | .rejectSyntaxErrors => "reject_syntax_errors"
  | .highlightDiagnostics => "highlight_diagnostics"
  | .ruleSeverities => "rule_severities"
  | .ruleConfigs => "rule_configs"

/-- The setting of a name. -/
def ofName? (s : String) : Option Setting := all.find? (fun x => x.name == s)

theorem ofName?_name (x : Setting) : ofName? x.name = some x := by
  cases x <;> decide

end Setting

/-- Why a configuration cannot be used. -/
inductive ConfigError where
  /-- There is no setting of this name. -/
  | unknownSetting (name : String)
  /-- A section that is looked into is no mapping. -/
  | notASection (setting : Setting)
  /-- The options of a rule are no mapping. -/
  | notOptions (ruleId : String)
  /-- An item in a list of options has another length than two. -/
  | notAPair (index length : Nat)
  /-- The patterns of enabled rules cannot be used. -/
  | notPatterns
deriving DecidableEq, Repr

/-- The values of the five settings. -/
structure Config where
  /-- Patterns on the ids of the rules that run. -/
  enabledRules : Value := .list [.str "*"]
  /-- Whether a tree with syntax errors counts as no tree. -/
  rejectSyntaxErrors : Value := .bool true
  /-- Whether every diagnostic is marked as a highlight as well. -/
  highlightDiagnostics : Value := .bool false
  /-- Severities by rule id. -/
  ruleSeverities : Value := .map []
  /-- Options by rule id. -/
  ruleConfigs : Value := .map []
deriving Repr

namespace Config

/-- The value of a setting. -/
def get (c : Config) : Setting → Value
  | .enabledRules => c.enabledRules
  | .rejectSyntaxErrors => c.rejectSyntaxErrors
  | .highlightDiagnostics => c.highlightDiagnostics
  | .ruleSeverities => c.ruleSeverities
  | .ruleConfigs => c.ruleConfigs

/-- Give a setting a value. -/
def set (c : Config) (x : Setting) (v : Value) : Config :=
  match x with
  | .enabledRules => { c with enabledRules := v }
  | .rejectSyntaxErrors => { c with rejectSyntaxErrors := v }
  | .highlightDiagnostics => { c with highlightDiagnostics := v }
  | .ruleSeverities => { c with ruleSeverities := v }
  | .ruleConfigs => { c with ruleConfigs := v }

@[simp] theorem get_set_self (c : Config) (x : Setting) (v : Value) : (c.set x v).get x = v := by
  cases x <;> rfl

theorem get_set_of_ne (c : Config) {x y : Setting} (v : Value) (h : y ≠ x) :
    (c.set x v).get y = c.get y := by
  cases x <;> cases y <;> first | rfl | exact absurd rfl h

/-- The settings as the entries of a mapping. -/
def toEntries (c : Config) : Entries :=
  Setting.all.map fun x => (.str x.name, c.get x)

/-- The configuration of the entries of a mapping; a setting without an entry is as in a new
configuration. -/
def ofEntries (es : Entries) : Config :=
  Setting.all.foldl (fun c x =>
    match Entries.get? (.str x.name) es with
    | some v => c.set x v
    | none => c) {}

/-- Whether an empty value means that the setting is not given. The flags have no such value. -/
def isCollection : Setting → Bool
  | .enabledRules | .ruleSeverities | .ruleConfigs => true
  | .rejectSyntaxErrors | .highlightDiagnostics => false

/-- A new configuration with some settings given by name. -/
def ofFields : List (String × Value) → Except ConfigError Config
  | [] => .ok {}
  | (name, v) :: rest =>
    match Setting.ofName? name with
    | none => .error (.unknownSetting name)
    | some x => (ofFields rest).map fun c =>
      match isCollection x, v with
      | true, .scalar .null => c
      | _, _ => c.set x v

/-- The configuration that holds when no other is given. -/
def default : Config where
  ruleConfigs := .object
    [("types.missing_return_type", .object [("scope_returns_to_body", .bool false)]),
      ("imports.folder_path", .object [("skip_suffixes", .list [.str ".scss"])]),
      ("naming.handler_prefix", .object [("prefix", .str "handle")]),
      ("react.map_key", .object [("inspect_expression_bodies", .bool true)])]

/-- The two parts of an item in a list of options. -/
def pairOf (ruleId : String) (i : Nat) : Value → Except ConfigError (Scalar × Value)
  | .list [.scalar k, v] | .pair (.scalar k) v => .ok (k, v)
  | .list [_, _] | .pair _ _ => .error (.notOptions ruleId)
  | .list xs => .error (.notAPair i xs.length)
  | .map [(k, _), (v, _)] => .ok (k, .scalar v)
  | .map es => .error (.notAPair i es.length)
  | .scalar (.str s) =>
    match s.toList with
    | [a, b] => .ok (.str (String.singleton a), .str (String.singleton b))
    | cs => .error (.notAPair i cs.length)
  | .scalar _ => .error (.notOptions ruleId)

/-- The options in a list of pairs, from the item `i` on. -/
def optionsOfPairs (ruleId : String) (i : Nat) : List Value → Except ConfigError Entries
  | [] => .ok []
  | x :: xs => do
    let p ← pairOf ruleId i x
    let rest ← optionsOfPairs ruleId (i + 1) xs
    return p :: rest

/-- The options that a value stands for: those of a mapping, or of a list of pairs. -/
def optionsOf (ruleId : String) : Value → Except ConfigError Entries
  | .map es => .ok es
  | .list xs => (optionsOfPairs ruleId 0 xs).map (Entries.update [])
  | .pair a b => (optionsOfPairs ruleId 0 [a, b]).map (Entries.update [])
  | .scalar (.str s) =>
    if s = "" then .ok [] else .error (.notAPair 0 1)
  | .scalar _ => .error (.notOptions ruleId)

/-- The options of a rule. -/
def options (c : Config) (ruleId : String) : Except ConfigError Entries :=
  match c.ruleConfigs with
  | .map es =>
    match Entries.get? (.str ruleId) es with
    | none => .ok []
    | some v => optionsOf ruleId v
  | _ => .error (.notASection .ruleConfigs)

/-- The severity that a value names. -/
def severityOf? (v : Value) : Option Severity := v.str?.bind Severity.ofName?

/-- The severity that is set for a rule, if it is one. -/
def severity? (c : Config) (ruleId : String) : Except ConfigError (Option Severity) :=
  if !c.ruleSeverities.truthy then .ok none
  else
    match c.ruleSeverities with
    | .map es => .ok ((Entries.get? (.str ruleId) es).bind severityOf?)
    | _ => .error (.notASection .ruleSeverities)

/-- The name of the severity that is set for a rule, or another one if none is set. -/
def severityOr (c : Config) (ruleId other : String) : Except ConfigError String :=
  (c.severity? ruleId).map fun s => (s.map Severity.name).getD other

/-- A diagnostic with the severity that is set for its rule. -/
def regrade (c : Config) : Output → Except ConfigError Output
  | .diagnostic d =>
    (c.severityOr d.ruleId d.severity).map fun severity => .diagnostic { d with severity }
  | o => .ok o

end Config

end TreeLint
