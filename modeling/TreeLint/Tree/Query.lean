import TreeLint.Text.Basic
import TreeLint.Tree.Node

/-!
# Questions about nodes

What the rules ask of a tree beyond walking it. Comments may stand anywhere in a tree; the parts
of a node (`Node.parts`) are its named children without them, and the other questions are put to
the parts.
-/

namespace TreeLint

/-- The kinds of nodes that open a function body. -/
def functionKinds : List String :=
  ["function_declaration", "generator_function_declaration", "function_expression", "function",
    "generator_function", "arrow_function", "method_definition"]

namespace Node

/-- Whether a node counts as a part of its parent: it is named and no comment. -/
def isPart (n : Node) : Bool := n.label.named && n.kind != "comment"

/-- The named children without comments. -/
def parts (n : Node) : List Node := n.children.filter isPart

/-- The first part. -/
def firstPart? (n : Node) : Option Node := n.parts.head?

/-- The last part. -/
def lastPart? (n : Node) : Option Node := n.parts.getLast?

mutual
/-- The expression inside any number of parentheses; empty parentheses hold none. -/
def unwrapped : Node → Option Node
  | .mk l cs =>
    if l.kind = "parenthesized_expression" then unwrappedFirst cs else some (.mk l cs)
/-- The expression inside the first part of a list of children. -/
def unwrappedFirst : List Node → Option Node
  | [] => none
  | c :: cs => if c.isPart then c.unwrapped else unwrappedFirst cs
end

/-- Parentheses are stripped from the outside in. -/
theorem unwrapped_eq (n : Node) :
    n.unwrapped =
      if n.kind = "parenthesized_expression" then n.firstPart?.bind unwrapped else some n := by
  have first : ∀ cs : List Node, unwrappedFirst cs = (cs.filter isPart).head?.bind unwrapped := by
    intro cs
    induction cs with
    | nil => rfl
    | cons c cs ih =>
      rw [unwrappedFirst, List.filter_cons]
      split
      · rfl
      · exact ih
  cases n with
  | mk l cs =>
    rw [unwrapped, first cs]
    rfl

/-- The type an annotation stands for: what follows the colon, or the node itself if it is no
annotation. -/
def annotatedType? (n : Node) : Option Node :=
  if n.kind = "type_annotation" then n.firstPart? else some n

/-- The type under a field that holds an annotation. -/
def typeUnder? (n : Node) (field : String) : Option Node :=
  (n.child? field).bind annotatedType?

/-- Whether a member of this name is a constructor. -/
def isConstructorName (name : Text) : Bool := name == "constructor".toList

/-- Whether a member is a constructor or has the keyword of an accessor before its name. -/
def isAccessorOrConstructor (n : Node) (name : Text) : Bool :=
  isConstructorName name ||
    (n.children.takeWhile (fun c => c.label.field != some "name")).any (·.isAny ["get", "set"])

/-- Whether a node itself is a syntax error: one the parser marked, or one it made up. -/
def isError (n : Node) : Bool := n.kind == "ERROR" || n.label.missing

/-- The start of the first syntax error among the nodes of an agenda. Nodes in which the parser
saw no error are not entered. -/
def errorIn : List Node → Option Int
  | [] => none
  | n :: agenda =>
    if n.isError then some n.label.startByte
    else errorIn ((if n.label.hasError then n.children else []) ++ agenda)
termination_by agenda => sizes agenda
decreasing_by
  simp only [sizes_append, sizes, size_eq n]
  split
  · omega
  · simp only [sizes]
    omega

/-- The byte at which the first syntax error of a tree starts. -/
def firstErrorByte (n : Node) : Option Int := errorIn [n]

end Node

end TreeLint
