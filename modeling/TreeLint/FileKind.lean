import TreeLint.Text.Lowercase
import TreeLint.Text.Quoted

/-!
# File kinds

The two kinds of sources, plain TypeScript and TypeScript with JSX. A kind may be named in any
case and with leading dots, and is found from the extension of a path.
-/

namespace TreeLint

/-- A kind of source. -/
inductive FileKind where
  | ts
  | tsx
deriving DecidableEq, Repr

/-- A name that is no file kind; `none` stands for a missing name. -/
structure UnsupportedKind where
  given : Option String
deriving DecidableEq, Repr

/-- The wording of an unsupported kind. -/
def UnsupportedKind.message (e : UnsupportedKind) : String :=
  let shown := match e.given with
    | none => "None"
    | some s => quoted s
  "Unsupported file kind: " ++ shown ++ " (expected one of ('ts', 'tsx'))"

namespace FileKind

/-- The name of a kind. -/
def name : FileKind → String
  | .ts => "ts"
  | .tsx => "tsx"

/-- The kind of a name as it stands. -/
def ofExact? (t : Text) : Option FileKind :=
  if t = "ts".toList then some .ts else if t = "tsx".toList then some .tsx else none

/-- The kind of a name in any case, leading dots aside. -/
def ofName (given : Option String) : Except UnsupportedKind FileKind :=
  match ofExact? ((Text.lower (given.getD "").toList).dropWhile (· == '.')) with
  | some k => .ok k
  | none => .error ⟨given⟩

/-- The last segment of a path. -/
def baseName (path : Text) : Text := path.drop (Text.afterLast '/' path)

/-- The extension of a path, dot included. Dots at the front of the last segment do not start an
extension. -/
def extension (path : Text) : Text :=
  let stem := (baseName path).dropWhile (· == '.')
  if stem.elem '.' then '.' :: stem.drop (Text.afterLast '.' stem) else []

/-- The kind of the file at a path, if it is a source. -/
def ofPath? (path : String) : Option FileKind :=
  match Text.lower (extension path.toList) with
  | '.' :: ext => ofExact? ext
  | _ => none

end FileKind

end TreeLint
