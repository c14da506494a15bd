import TreeLint.Rule.Basic

/-!
# Every switch has a default

A switch statement without a `default` clause is reported over its keyword.
-/

namespace TreeLint

namespace SwitchDefault

/-- What the rule says about itself. -/
def info : RuleInfo where
  id := "switch.missing_default"
  category := "switch"
  description := "Switch statements must have a default case"
  defaultSeverity := "warning"

/-- The message of a finding. -/
def message : String := "switch statement is missing a default case"

/-- The keyword of a switch statement without a default clause. -/
def keyword? (n : Node) : Option Node :=
  if n.kind = "switch_statement" then
    match n.child? "body", n.children.head? with
    | some body, some word =>
      if word.kind == "switch" && !body.namedChildren.any (·.kind == "switch_default") then
        some word
      else none
    | _, _ => none
  else none

/-- What one node reports. -/
def check (s : Source) (n : Node) : Except RuleFailure (List Output) :=
  match keyword? n with
  | none => return []
  | some word => return [info.diagnostic (← s.span word) message]

/-- The rule. -/
def rule : Rule := .ofOutputs info fun s _ => s.eachNode (check s)

end SwitchDefault

end TreeLint
