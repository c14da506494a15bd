import TreeLint.Analysis
import TreeLint.FileKind
import TreeLint.Yaml.Fault

/-!
# Warnings

What goes wrong without ending the work is told as a warning. A computation with warnings
(`Logged`) carries them in the order in which they came up; one that may also end early
(`Attempt`) keeps the warnings that came up before its end.
-/

namespace TreeLint

/-- Why the settings in a configuration file are refused. -/
inductive SettingError where
  /-- The patterns of enabled rules are no list of strings. -/
  | patterns (given : Value)
  /-- A flag is neither true nor false. -/
  | flag (key : String) (given : Value)
  /-- A section is no mapping. -/
  | mapping (key : String) (given : Value)
  /-- A rule is named by a whole number that is too long to be shown. -/
  | longRuleId (ruleId : Scalar)
  /-- The file as a whole is no mapping. -/
  | topLevel
  /-- The default options that a file adds to are no mapping. -/
  | defaultOptions (key : String)
  /-- The default severities that a file adds to are no mapping. -/
  | defaultSeverities
deriving Repr

/-- The wording of a refused setting. -/
def SettingError.message : SettingError → String
  | .patterns v => v.tell "enabled_rules must be a list of strings, got "
  | .flag key v => v.tell (key ++ " must be true or false, got ")
  | .mapping key v => v.tell (key ++ " must be a mapping, got ")
  | .longRuleId _ => tooLongToShow
  | .topLevel => "top level of config must be a mapping"
  | .defaultOptions key => "default of " ++ key ++ " must be a mapping"
  | .defaultSeverities => "default of rule_severities must be a mapping"

/-- Why a configuration file was passed over. -/
inductive LoadError where
  /-- The file holds no document. -/
  | document (fault : Yaml.Fault)
  /-- There is no file to read. -/
  | unreadable
  /-- The settings in the document are refused. -/
  | refused (e : SettingError)
deriving Repr

/-- The wording of a cause that has one. -/
def LoadError.message? : LoadError → Option String
  | .document fault => fault.message?
  | .unreadable => none
  | .refused e => some e.message

/-- A warning. -/
inductive Warning where
  /-- A text has no usable tree. -/
  | parseFailed (kind : FileKind) (message : String)
  /-- A rule failed; nothing of it is kept. -/
  | ruleFailed (ruleId : String)
  /-- A rule put out something outside the text. -/
  | outputDropped (ruleId : String) (output : Output)
  /-- A configuration file has a key that is not known. -/
  | unknownKey (key : Scalar)
  /-- A configuration file gives a rule a severity that is not known. -/
  | badSeverity (given : Value) (ruleId : Scalar)
  /-- A configuration file was passed over. -/
  | loadFailed (cause : LoadError)
deriving Repr

/-- A value with the warnings that came up on the way. -/
structure Logged (α : Type) where
  warnings : List Warning := []
  value : α
deriving Repr

namespace Logged

instance : Monad Logged where
  pure a := { value := a }
  bind x f :=
    let y := f x.value
    ⟨x.warnings ++ y.warnings, y.value⟩

theorem value_bind {α β : Type} (x : Logged α) (f : α → Logged β) :
    (x >>= f).value = (f x.value).value := rfl

/-- Tell a warning. -/
def warn (w : Warning) : Logged Unit := ⟨[w], ()⟩

end Logged

/-- A computation with warnings that may end early. -/
abbrev Attempt (ε α : Type) := ExceptT ε Logged α

namespace Attempt

/-- Tell a warning. -/
def warn {ε : Type} (w : Warning) : Attempt ε Unit := ExceptT.lift (Logged.warn w)

/-- Take over a result without warnings. -/
def ofExcept {ε α : Type} (x : Except ε α) : Attempt ε α := ExceptT.mk (pure x)

end Attempt

end TreeLint
