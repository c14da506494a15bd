import TreeLint.Rule.Basic

/-!
# No parameter or variable of type `any`

A parameter, a variable or the binding of a `catch` clause must not be annotated with exactly
`any`. The annotation is compared as text, so `any[]` or an alias of `any` passes. A parameter is
reported as a whole, name included; of a variable only the annotated type is reported.
-/

namespace TreeLint

namespace NoAny

/-- What the rule says about itself. -/
def info : RuleInfo where
  id := "types.no_any"
  category := "types"
  description := "Forbids parameters and variables annotated with 'any'"
  kinds := ["ts"]

/-- The message of a finding. -/
def message : String := "use of type 'any' is forbidden"

/-- The kinds of parameters. -/
def parameterKinds : List String := ["required_parameter", "optional_parameter"]

/-- The kinds of bindings that report only their type. -/
def bindingKinds : List String := ["variable_declarator", "catch_clause"]

/-- The annotated type of a node, if it reads exactly `any`. -/
def anyType? (s : Source) (n : Node) : Except RuleFailure (Option Node) :=
  match n.typeUnder? "type" with
  | none => .ok none
  | some t => do return if ← s.reads t "any" then some t else none

/-- What one node reports. -/
def check (s : Source) (n : Node) : Except RuleFailure (List Output) :=
  if n.isAny parameterKinds then do
    match ← anyType? s n with
    | some _ => return [info.diagnostic (← s.span n) message]
    | none => return []
  else if n.isAny bindingKinds then do
    match ← anyType? s n with
    | some t => return [info.diagnostic (← s.span t) message]
    | none => return []
  else return []

/-- The rule. -/
def rule : Rule := .ofOutputs info fun s _ => s.eachNode (check s)

end NoAny

end TreeLint
