import TreeLint.Rule.Basic

/-!
# The cases of a switch differ

The conditions of the cases of one switch are grouped by their text. Every condition of a group
of two or more is reported, the first one included. Conditions are compared as text, so `1` and
`0x1` differ.
-/

namespace TreeLint

namespace DuplicateCase

/-- What the rule says about itself. -/
def info : RuleInfo where
  id := "switch.duplicate_case"
  category := "switch"
  description := "Case conditions must be unique within a switch"
  defaultSeverity := "warning"

/-- The message of a finding. -/
def message (condition : Text) : String :=
  "duplicate case condition: '" ++ String.ofList condition ++ "'"

/-- The conditions of the cases of a switch, those of nested switches left out. -/
def conditions (n : Node) : List Node :=
  if n.kind = "switch_statement" then
    match n.child? "body" with
    | none => []
    | some body =>
      (body.namedChildren.filter (·.kind == "switch_case")).filterMap (·.child? "value")
  else []

/-- The members of the groups of two or more, group by group in the order of their first
members. -/
def repeated (keyed : List (Text × OffsetRange)) : List (Text × OffsetRange) :=
  (keyed.map Prod.fst).eraseDups.flatMap fun key =>
    let group := keyed.filter (·.1 == key)
    if group.length < 2 then [] else group

/-- What one node reports. -/
def check (s : Source) (n : Node) : Except RuleFailure (List Output) := do
  let ranges ← (conditions n).mapM s.span
  return (repeated (ranges.map fun r => (r.slice s.text, r))).map fun p =>
    info.diagnostic p.2 (message p.1)

/-- The rule. -/
def rule : Rule := .ofOutputs info fun s _ => s.eachNode (check s)

end DuplicateCase

end TreeLint
