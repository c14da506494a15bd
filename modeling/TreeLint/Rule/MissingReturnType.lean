import TreeLint.Rule.Basic

/-!
# Functions that return need a return type

A function or method declaration with a `return` statement somewhere below it must declare a
return type. By default a `return` of a nested function counts as well. With the option
`scope_returns_to_body` only the body is searched, and nested functions and classes in it are not
entered. Accessors and constructors are left alone.
-/

namespace TreeLint

namespace MissingReturnType

/-- What the rule says about itself. -/
def info : RuleInfo where
  id := "types.missing_return_type"
  category := "types"
  description := "Requires an explicit return type on functions containing a return statement"
  kinds := ["ts"]

/-- The message of a finding. -/
def message : String := "missing explicit return type"

/-- The kinds of declarations that are checked. -/
def declarationKinds : List String :=
  ["function_declaration", "generator_function_declaration", "method_definition"]

/-- The kinds of nodes whose `return` statements are their own. A nested class counts because it
holds methods. -/
def scopeBoundaries : List String :=
  functionKinds ++ ["class", "class_declaration", "abstract_class_declaration"]

/-- Whether a declaration has a `return` statement that counts. -/
def returns (bodyOnly : Bool) (n : Node) : Bool :=
  if bodyOnly then
    match n.child? "body" with
    | none => false
    | some body => (body.descendants scopeBoundaries).any (·.kind == "return_statement")
  else (n.descendants []).any (·.kind == "return_statement")

/-- What one node reports. -/
def check (s : Source) (bodyOnly : Bool) (n : Node) : Except RuleFailure (List Output) :=
  if !n.isAny declarationKinds then return []
  else if (n.child? "return_type").isSome then return []
  else
    match n.child? "name" with
    | none => return []
    | some name => do
      if n.kind == "method_definition" then
        if n.isAccessorOrConstructor (← s.textOf name) then
          return []
      if returns bodyOnly n then
        return [info.diagnostic (← s.span name) message]
      return []

/-- The rule. -/
def rule : Rule := .ofOutputs info fun s o =>
  s.eachNode (check s (Options.get o "scope_returns_to_body" (.bool false)).truthy)

end MissingReturnType

end TreeLint
