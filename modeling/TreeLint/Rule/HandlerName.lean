import TreeLint.Rule.Basic
import TreeLint.Text.Lowercase

/-!
# Handler names start with their stem

A name that mentions the stem of handler names, `handle` unless the option `prefix` says
otherwise, must start with it; case does not matter. Names are taken from the tree, so comments
and strings never count: the names of functions, methods and variables, the names that are
called, and the keys of an object whose value is a function.

The same name may be met twice, as when a named function is called on the spot. Every span is
reported once.
-/

namespace TreeLint

namespace HandlerName

/-- What the rule says about itself. -/
def info : RuleInfo where
  id := "naming.handler_prefix"
  category := "naming"
  description := "Names containing 'handle' must start with 'handle'"

/-- The message of a finding. -/
def message (stem : Text) : String :=
  "handler name must start with '" ++ String.ofList stem ++ "'"

/-- The kinds of nodes that carry a name of their own. -/
def namedKinds : List String :=
  ["function_declaration", "generator_function_declaration", "function_expression", "function",
    "generator_function", "method_definition", "method_signature", "abstract_method_signature",
    "function_signature", "variable_declarator"]

/-- The kinds of functions that may be the value of a key. -/
def functionValueKinds : List String := ["function_expression", "function", "arrow_function"]

/-- The kinds of nodes that are names. -/
def nameKinds : List String :=
  ["identifier", "property_identifier", "private_property_identifier"]

/-- The name that a called expression goes by: its property if it is a member, else itself. -/
def calledName? (callee : Node) : Option Node :=
  if callee.kind = "member_expression" then callee.child? "property" else some callee

/-- The node that names another one. -/
def nameOf? (n : Node) : Option Node :=
  if n.isAny namedKinds then n.child? "name"
  else if n.kind = "call_expression" then (n.child? "function").bind calledName?
  else if n.kind = "new_expression" then (n.child? "constructor").bind calledName?
  else if n.kind = "pair" then
    if (n.child? "value").any (·.isAny functionValueKinds) then n.child? "key" else none
  else none

/-- The names of a tree in the order of the nodes that they name. -/
def names (root : Node) : List Node :=
  (root.walk.filterMap nameOf?).filter (·.isAny nameKinds)

/-- Whether a name mentions the stem without starting with it. No name mentions a stem that is no
text. -/
def isMisnamed (stem : Option Text) (name : Text) : Bool :=
  let low := Text.lower name
  stem.any fun t => Text.holds t low && !t.isPrefixOf low

/-- A misnamed name with the bytes it spans. -/
structure Finding where
  bytes : Int × Int
  range : OffsetRange
deriving DecidableEq, Repr

/-- The finding of one name. -/
def check (s : Source) (stem : Option Text) (name : Node) : Except RuleFailure (List Finding) := do
  let range ← s.span name
  if isMisnamed stem (range.slice s.text) then
    return [⟨(name.label.startByte, name.label.endByte), range⟩]
  return []

/-- The findings without those whose bytes were met before. -/
def firsts (met : List (Int × Int)) : List Finding → List Finding
  | [] => []
  | f :: rest =>
    if met.contains f.bytes then firsts met rest else f :: firsts (f.bytes :: met) rest

/-- What the option says about the stem. -/
def given (o : Options) : Value := Options.get o "prefix" (.str "handle")

/-- The stem in lower case, if it is a text. A value of any shape stands for what it reads as,
unless it holds a number that cannot be shown. -/
def stem (o : Options) : Except RuleFailure (Option Text) :=
  if (given o).isShowable then .ok ((given o).text?.map Text.lower) else .error .longNumber

/-- The outputs of a visit for a stem. -/
def outputs (s : Source) (stem : Option Text) : Run Output :=
  (s.each names (check s stem)).mapResults fun found =>
    (firsts [] found).map fun f => info.diagnostic f.range (message (stem.getD []))

/-- The rule. -/
def rule : Rule := .ofOutputs info fun s o =>
  if s.tree.isNone then {}
  else
    match stem o with
    | .error e => { failure := some e }
    | .ok stem => outputs s stem

end HandlerName

end TreeLint
