import TreeLint.Rule.Basic

/-!
# No declared return type `any`

A function or method must not be declared to return exactly `any`. Overload signatures count as
declarations, in classes too, but the members of an interface do not. Accessors and constructors
are left alone.
-/

namespace TreeLint

namespace AnyReturnType

/-- What the rule says about itself. -/
def info : RuleInfo where
  id := "types.any_return_type"
  category := "types"
  description := "Forbids functions and methods declared to return 'any'"
  kinds := ["ts"]

/-- The message of a finding. -/
def message : String := "return type 'any' is forbidden"

/-- The kinds of functions. -/
def functionDeclarationKinds : List String :=
  ["function_declaration", "generator_function_declaration", "function_signature"]

/-- The kinds of methods without a body. -/
def signatureKinds : List String := ["method_signature", "abstract_method_signature"]

/-- Whether a node is a declaration. A method without a body is one only in a class. -/
def isDeclaration (parent : Option Node) (n : Node) : Bool :=
  n.isAny functionDeclarationKinds || n.kind == "method_definition" ||
    (n.isAny signatureKinds && parent.any (·.kind == "class_body"))

/-- Whether a node is a method, with or without a body. -/
def isMethod (n : Node) : Bool := n.kind == "method_definition" || n.isAny signatureKinds

/-- What one node reports. -/
def check (s : Source) (parent : Option Node) (n : Node) : Except RuleFailure (List Output) :=
  if !isDeclaration parent n then return []
  else
    match n.child? "name", n.typeUnder? "return_type" with
    | some name, some type => do
      if isMethod n then
        if n.isAccessorOrConstructor (← s.textOf name) then
          return []
      if ← s.reads type "any" then
        return [info.diagnostic (← s.span name) message]
      return []
    | _, _ => return []

/-- The rule. -/
def rule : Rule := .ofOutputs info fun s _ =>
  s.each Node.walkWithParent fun p => check s p.1 p.2

end AnyReturnType

end TreeLint
