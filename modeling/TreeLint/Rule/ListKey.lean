import TreeLint.Rule.Basic

/-!
# Elements of a list have a key

A `.map(…)` call whose callback returns a JSX element without a `key` attribute is highlighted
over the word `map`. The callback is a function or an arrow function. If its body is a block, the
last statement must return the element; an expression body is looked at unless the option
`inspect_expression_bodies` is off. Only the attributes of the element itself count. Fragments
take no attributes and are left alone.
-/

namespace TreeLint

namespace ListKey

/-- What the rule says about itself. -/
def info : RuleInfo where
  id := "react.map_key"
  category := "react"
  description := "JSX returned from a .map callback needs a key attribute"
  kinds := ["tsx"]
  defaultSeverity := "warning"

/-- The kinds of callbacks. -/
def callbackKinds : List String := ["arrow_function", "function_expression", "function"]

/-- The kinds of JSX elements. -/
def elementKinds : List String := ["jsx_element", "jsx_self_closing_element"]

/-- The property of a call of a member. -/
def method? (n : Node) : Option Node :=
  if n.kind = "call_expression" then
    match n.child? "function" with
    | none => none
    | some f => if f.kind = "member_expression" then f.child? "property" else none
  else none

/-- The callback of a call: its first argument, if that is a function. -/
def callback? (n : Node) : Option Node :=
  ((n.child? "arguments").bind Node.firstPart?).filter (·.isAny callbackKinds)

/-- The expression a callback returns. -/
def returned? (inspectExpressions : Bool) (callback : Node) : Option Node :=
  match callback.child? "body" with
  | none => none
  | some body =>
    if body.kind = "statement_block" then
      match body.lastPart? with
      | none => none
      | some last => if last.kind = "return_statement" then last.firstPart? else none
    else if inspectExpressions then some body
    else none

/-- The JSX element a callback returns, parentheses aside. -/
def element? (inspectExpressions : Bool) (callback : Node) : Option Node :=
  ((returned? inspectExpressions callback).bind Node.unwrapped).filter (·.isAny elementKinds)

/-- The node that holds the attributes of an element. -/
def tag? (element : Node) : Option Node :=
  if element.kind = "jsx_element" then (element.child? "open_tag").or element.firstPart?
  else some element

/-- Whether one of these attributes is a key. -/
def anyKey (s : Source) : List Node → Except RuleFailure Bool
  | [] => return false
  | a :: rest =>
    match a.firstPart? with
    | none => anyKey s rest
    | some name => do
      if ← s.reads name "key" then
        return true
      anyKey s rest

/-- Whether an element has a key, or is a fragment, which can have none. -/
def hasKey (s : Source) (element : Node) : Except RuleFailure Bool :=
  match tag? element with
  | none => return true
  | some tag =>
    if (tag.child? "name").isNone then return true
    else anyKey s (tag.namedChildren.filter (·.kind == "jsx_attribute"))

/-- What one node reports. -/
def check (s : Source) (inspectExpressions : Bool) (n : Node) :
    Except RuleFailure (List Output) :=
  match method? n with
  | none => return []
  | some method => do
    if !(← s.reads method "map") then
      return []
    match (callback? n).bind (element? inspectExpressions) with
    | none => return []
    | some element =>
      if ← hasKey s element then
        return []
      return [.highlight ⟨← s.span method, info.id⟩]

/-- The rule. -/
def rule : Rule := .ofOutputs info fun s o =>
  s.eachNode (check s (Options.get o "inspect_expression_bodies" (.bool true)).truthy)

end ListKey

end TreeLint
