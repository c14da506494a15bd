import TreeLint.Yaml.Document
import TreeLint.Yaml.Stream

/-!
# Reading YAML

`Yaml.read` gives the value that a document stands for, or tells why there is none: a fault of the
file or of the grammar, whichever comes up first, or else the first fault in what the nodes stand
for. A file without a document stands for null. The value is to be looked into, so a document that
holds itself is unfolded once.
-/

namespace TreeLint

namespace Yaml

/-- The value that the text of a document stands for; `ending` is the fault of the file behind the
text. -/
def readText (text : Text) (ending : Option Fault) : Except Fault Value := do
  match ← Node.ofTokens (Token.ofText text ending) with
  | none => return .null
  | some (n, name) =>
    match n.meaning, name with
    | ⟨_, some (_, f)⟩, _ => throw f
    | ⟨v, none⟩, none => return v
    | ⟨v, none⟩, some name => return v.unfolded (String.ofList name)

/-- The value that the document in a file stands for. -/
def read (bytes : List UInt8) : Except Fault Value :=
  let (text, ending) := Stream.load bytes
  readText text ending

end Yaml

end TreeLint
