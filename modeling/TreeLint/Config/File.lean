import TreeLint.Config.Codec
import TreeLint.Config.Merge
import TreeLint.Disk

/-!
# Configuration files

A configuration is loaded from a file and saved to one, by some library. If there is no file the
default configuration holds, and if the file cannot be read, is no document or is refused, the
default configuration holds as well and a warning says why. Only a grave fault of the document ends
the loading.
-/

namespace TreeLint

/-- Why a configuration is not saved. -/
inductive SaveError where
  /-- Its file cannot be opened. -/
  | disk (e : DiskError)
  /-- The library cannot write it. -/
  | unwritable
deriving DecidableEq, Repr

namespace Config

/-- The entries of a document. A document that counts as false has none. -/
def entriesOf (v : Value) : Except SettingError Entries :=
  if !v.truthy then .ok []
  else
    match v with
    | .map es => .ok es
    | _ => .error .topLevel

/-- The configuration of a document. -/
def ofDocument (v : Value) : Attempt SettingError Config := do
  let given ← Attempt.ofExcept (entriesOf v)
  let merged ← merge default.toEntries given
  return ofEntries merged

/-- The configuration in a file. -/
def ofContent (codec : Codec) (content : ByteArray) : Attempt LoadError Config := do
  let v ← Attempt.ofExcept ((codec.read content.toList).mapError LoadError.document)
  ExceptT.adapt LoadError.refused (ofDocument v)

/-- The fault that ends the loading, if a cause is one. -/
def graveFault? : LoadError → Option Yaml.Fault
  | .document f => if f.isGrave then some f else none
  | .unreadable | .refused _ => none

/-- The configuration that is loaded, or the default one with a warning. -/
def orDefault (x : Attempt LoadError Config) : Attempt Yaml.Fault Config := do
  match ← ExceptT.lift x.run with
  | .ok c => return c
  | .error e =>
    match graveFault? e with
    | some f => throw f
    | none =>
      Attempt.warn (.loadFailed e)
      return default

/-- Load the configuration that a path leads to. -/
def load (codec : Codec) (d : Disk) (path : Option String) : Attempt Yaml.Fault Config :=
  match path.bind d.find? with
  | none => return default
  | some p =>
    match d.get? p with
    | some (.file content) => orDefault (ofContent codec content)
    | _ => orDefault (throw .unreadable)

/-- The document of a configuration. -/
def document (c : Config) : Value := .map c.toEntries

/-- The content of the file that a configuration is saved to, unless it cannot be written. -/
def content? (codec : Codec) (c : Config) : Option Text := codec.write c.document

/-- Save a configuration to the file that a path leads to. The file is opened before anything is
written to it. -/
def save (codec : Codec) (c : Config) (d : Disk) (path : String) : Except SaveError Disk := do
  let content := c.content? codec
  let saved ← (d.write path (Text.fileBytes (content.getD []))).mapError .disk
  if content.isSome then return saved else throw .unwritable

end Config

end TreeLint
