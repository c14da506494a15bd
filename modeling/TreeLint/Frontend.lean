import TreeLint.FileKind
import TreeLint.Tree.Query

/-!
# From a parser's answer to a tree

The parser itself is a collaborator: for every text it answers with a tree, with nothing, or with
a failure, which may lie in loading the grammar or in setting the parser up. A frontend turns the
answer into a tree that the rules may walk. It keeps one parser for each file kind once it has
been made, and it may refuse trees with syntax errors.
-/

namespace TreeLint

/-- What the parser does when it is called. -/
inductive ParserAnswer where
  /-- It returns a tree. -/
  | tree (t : SyntaxTree)
  /-- It returns nothing. -/
  | nothing
  /-- It fails. -/
  | failed (reason : String)
  /-- The grammar cannot be loaded. -/
  | noGrammar (reason : String)
  /-- The parser cannot be set up. -/
  | noSetup (reason : String)
deriving Repr

/-- Why a text has no usable tree. -/
inductive ParseError where
  | noGrammar (reason : String)
  | noSetup (kind : FileKind) (reason : String)
  | failed (reason : String)
  | noTree
  /-- The tree has syntax errors, the first of them at this byte. -/
  | syntaxErrors (byte : Option Int)
deriving DecidableEq, Repr

/-- The wording of a parse error. -/
def ParseError.message : ParseError → String
  | .noGrammar r => "tree-sitter-typescript not available: " ++ r
  | .noSetup k r => "Could not initialize " ++ k.name ++ " parser: " ++ r
  | .failed r => "Parser failed: " ++ r
  | .noTree => "Parser returned no tree"
  | .syntaxErrors none => "Source has syntax errors at None"
  | .syntaxErrors (some b) => "Source has syntax errors at " ++ toString b

/-- What turns answers into trees. -/
structure Frontend where
  /-- Whether trees with syntax errors are refused. -/
  rejectsErrors : Bool := true
  /-- The kinds that have a parser. -/
  ready : List FileKind := []
deriving DecidableEq, Repr

namespace Frontend

/-- The name of the language. -/
def languageId : String := "typescript"

/-- The extensions of its sources. -/
def fileExtensions : List String := [".ts", ".tsx"]

/-- The grammar that a kind is parsed with. -/
def grammarName : FileKind → String
  | .ts => "language_typescript"
  | .tsx => "language_tsx"

/-- Make the parser of a kind, unless there is one. One that could not be made is not kept. -/
def prepare (f : Frontend) (kind : FileKind) (answer : ParserAnswer) :
    Except ParseError Frontend :=
  if f.ready.contains kind then .ok f
  else
    match answer with
    | .noGrammar r => .error (.noGrammar r)
    | .noSetup r => .error (.noSetup kind r)
    | _ => .ok { f with ready := f.ready ++ [kind] }

/-- The root that an answer gives once there is a parser. -/
def accept (f : Frontend) : ParserAnswer → Except ParseError Node
  | .tree (.rooted root) =>
    if f.rejectsErrors && root.label.hasError then .error (.syntaxErrors root.firstErrorByte)
    else .ok root
  | .tree .rootless => .error .noTree
  | .nothing => .error .noTree
  | .failed r => .error (.failed r)
  | .noGrammar _ => .error (.failed "no tree given")
  | .noSetup _ => .error (.failed "no tree given")

/-- The root of a text's tree, with the frontend as it is afterwards. -/
def parse (f : Frontend) (kind : FileKind) (answer : ParserAnswer) :
    Except ParseError Node × Frontend :=
  match f.prepare kind answer with
  | .error e => (.error e, f)
  | .ok f => (f.accept answer, f)

end Frontend

end TreeLint
