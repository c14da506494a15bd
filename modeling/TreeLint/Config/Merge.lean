import TreeLint.Config.Basic
import TreeLint.Warning

/-!
# Settings of a file over the defaults

A configuration file is laid over default settings, key by key in the order of the file. Options
are merged rule by rule and severities entry by entry; the patterns of enabled rules and the
flags are replaced. A key that is not among the defaults, and a severity that is not known, are
passed over with a warning. A value of a wrong shape refuses the whole file, and so does a default
of a wrong shape that the file adds to.
-/

namespace TreeLint

namespace Config

/-- The entries of a section; an empty section has none. -/
def sectionEntries (key : String) : Value → Except SettingError Entries
  | .scalar .null => .ok []
  | .map es => .ok es
  | v => .error (.mapping key v)

/-- The key of the options of a rule. -/
def optionsKey (ruleId : Scalar) : String := Setting.ruleConfigs.name ++ "." ++ ruleId.text

/-- The options that a file gives a rule. Their key is put together before they are looked at, and
that fails for a rule that is named by too long a number. -/
def givenOptions (ruleId : Scalar) (v : Value) : Except SettingError Entries :=
  if ruleId.isShowable then sectionEntries (optionsKey ruleId) v else .error (.longRuleId ruleId)

/-- The default options of a rule; a rule without them has none. -/
def optionsUnder (base : Entries) (ruleId : Scalar) : Except SettingError Entries :=
  match Entries.get? ruleId base with
  | none => .ok []
  | some (.map old) => .ok old
  | some _ => .error (.defaultOptions (optionsKey ruleId))

/-- Merge the options of rules into a default section. The defaults of a rule are looked at before
what the file gives it; a section that the file adds nothing to may be anything. -/
def mergeOptions (base : Value) : Entries → Except SettingError Value
  | [] => .ok base
  | (ruleId, v) :: rest =>
    match base with
    | .map es => do
      let old ← optionsUnder es ruleId
      let given ← givenOptions ruleId v
      mergeOptions (.map (Entries.put ruleId (.map (Entries.update old given)) es)) rest
    | _ => .error (.defaultOptions Setting.ruleConfigs.name)

/-- Merge severities into a default section. -/
def mergeSeverities (base : Value) : Entries → Attempt SettingError Value
  | [] => return base
  | (ruleId, v) :: rest =>
    match severityOf? v, base with
    | none, base => do
      Attempt.warn (.badSeverity v ruleId)
      mergeSeverities base rest
    | some _, .map es => mergeSeverities (.map (Entries.put ruleId v es)) rest
    | some _, _ => throw .defaultSeverities

/-- What a default becomes under a key of a file. -/
def mergeValue (key : String) (base v : Value) : Attempt SettingError Value :=
  if key = Setting.ruleConfigs.name then do
    let given ← Attempt.ofExcept (sectionEntries key v)
    Attempt.ofExcept (mergeOptions base given)
  else if key = Setting.ruleSeverities.name then do
    let given ← Attempt.ofExcept (sectionEntries key v)
    mergeSeverities base given
  else if key = Setting.enabledRules.name then
    if v.isStringList then return v else throw (.patterns v)
  else
    match v with
    | .scalar (.bool _) => return v
    | _ => throw (.flag key v)

/-- Merge one entry of a file. -/
def mergeEntry (merged : Entries) (key : Scalar) (v : Value) : Attempt SettingError Entries :=
  match key, Entries.get? key merged with
  | .str name, some base => do
    let new ← mergeValue name base v
    return Entries.put key new merged
  | _, _ => do
    Attempt.warn (.unknownKey key)
    return merged

/-- Lay the entries of a file over defaults. -/
def merge (merged : Entries) : Entries → Attempt SettingError Entries
  | [] => pure merged
  | (key, v) :: rest => do
    let next ← mergeEntry merged key v
    merge next rest

end Config

end TreeLint
