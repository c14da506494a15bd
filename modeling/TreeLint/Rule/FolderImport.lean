import TreeLint.Rule.Basic

/-!
# Imports name folders

Two checks on the path of an import, each by itself:

* a relative path of three segments or more must not end in a file extension, unless it passes
  through a `components` folder;
* a path that starts with `../` gets `./` put in front of it. Then it no longer starts with
  `../`, so a second pass leaves it alone.

Paths with one of the suffixes of the option `skip_suffixes` are not checked at all.
-/

namespace TreeLint

namespace FolderImport

/-- What the rule says about itself. -/
def info : RuleInfo where
  id := "imports.folder_path"
  category := "imports"
  description := "Imports must reference folders; '../' specifiers are prefixed with './'"

/-- The message of a finding. -/
def message (path : Text) : String :=
  "import must reference a folder, not a file: " ++ String.ofList path

/-- The suffixes taken when the option is not given. -/
def defaultSuffixes : Value := .list [.str ".scss"]

/-- The suffixes an option stands for: nothing, a single one, or the items of a list or the keys
of a mapping. -/
def suffixes (option : Value) : Except RuleFailure (List Value) :=
  if !option.truthy then .ok []
  else
    match option with
    | .scalar (.str s) => .ok [.str s]
    | .scalar (.halves codes) => .ok [.scalar (.halves codes)]
    | .scalar _ => .error .option
    | .list xs => .ok xs
    | .pair a b => .ok [a, b]
    | .map es => .ok (es.map fun e => .scalar e.1)

/-- Whether a path ends with one of the suffixes. A value that is no string cannot be compared;
it is met only when no suffix before it fits. -/
def isSkipped (path : Text) : List Value → Except RuleFailure Bool
  | [] => .ok false
  | .scalar (.str s) :: rest => if s.toList.isSuffixOf path then .ok true else isSkipped path rest
  | .scalar (.halves codes) :: rest =>
    if codes.isSuffixOf path.toCodes then .ok true else isSkipped path rest
  | _ :: _ => .error .option

/-- Whether a text ends in a dot and at least one ASCII letter. -/
def endsInExtension (t : Text) : Bool :=
  let back := t.reverse
  !(back.takeWhile Char.isAlpha).isEmpty && (back.dropWhile Char.isAlpha).head? == some '.'

/-- Whether a path ends in a file extension, a line feed behind it aside. -/
def hasExtension (path : Text) : Bool :=
  endsInExtension path || (path.getLast? == some '\n' && endsInExtension path.dropLast)

/-- Whether a path is relative. -/
def isRelative (path : Text) : Bool :=
  "./".toList.isPrefixOf path || "../".toList.isPrefixOf path

/-- Whether a path names a file where a folder is wanted. -/
def namesFile (path : Text) : Bool :=
  hasExtension path && isRelative path && !Text.holds "/components/".toList path &&
    decide (2 < (Text.split '/' path).length)

/-- The quoted path of an import. One too short to hold its quotes is left alone. -/
def pathNode? (n : Node) : Option Node :=
  if n.kind = "import_statement" then
    (n.child? "source").filter fun c =>
      c.kind == "string" && decide (2 ≤ c.label.endByte - c.label.startByte)
  else none

/-- What is reported for a path whose characters lie in the range `inner`. The diagnostic covers
the last segment and the closing quote. -/
def report (inner : OffsetRange) (path : Text) : List Output :=
  let file :=
    if namesFile path then
      [info.diagnostic
        ⟨inner.start + Text.afterLast '/' path, inner.start + path.length + 1, by
          have := Text.afterLast_le '/' path
          omega⟩
        (message path)]
    else []
  let dotted :=
    if "../".toList.isPrefixOf path then
      [.edit ⟨inner.start, inner.stop, "./".toList ++ path, info.id⟩]
    else []
  file ++ dotted

/-- What one node reports. -/
def check (s : Source) (skipped : List Value) (n : Node) : Except RuleFailure (List Output) :=
  match pathNode? n with
  | none => return []
  | some c => do
    let quoted ← s.span c
    match OffsetRange.of (quoted.start + 1) ((quoted.stop : Int) - 1) with
    | .error e => throw (.range e)
    | .ok inner =>
      let path := inner.slice s.text
      if ← isSkipped path skipped then
        return []
      return report inner path

/-- The rule. -/
def rule : Rule := .ofOutputs info fun s o =>
  if s.tree.isNone then {}
  else
    match suffixes (Options.get o "skip_suffixes" defaultSuffixes) with
    | .error e => { failure := some e }
    | .ok skipped => s.eachNode (check s skipped)

end FolderImport

end TreeLint
