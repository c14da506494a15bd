import TreeLint.Text.Basic

/-!
# Files and folders

A place on a disk is the list of names on the way from it up to the root, so the folder around a
place is the tail of the list. A disk knows what stands at a place; a folder is there as soon as
something is inside it.

A path is a text with names between slashes. On a disk it leads, name by name, from the working
folder or the root to a place (`Disk.locate`), and every step but the last has to end at a folder.
A path may also be followed without a look at the disk (`Disk.normalize`).
-/

namespace TreeLint

/-- A place on a disk: the names from it up to the root. -/
abbrev Place := List String

namespace Place

/-- The folder around a place; the root is around itself. -/
def parent (p : Place) : Place := p.tail

/-- The place that a name leads to. Nothing and a dot lead nowhere else, two dots lead up. -/
def enter (p : Place) (name : String) : Place :=
  if name = "" ∨ name = "." then p
  else if name = ".." then p.parent
  else name :: p

/-- The path to a place from a folder around it. -/
def pathFrom (p base : Place) : String :=
  "/".intercalate (p.take (p.length - base.length)).reverse

end Place

/-- What stands at a place. -/
inductive DiskEntry where
  | folder
  | file (content : ByteArray)

/-- A disk. -/
structure Disk where
  /-- What was put on the disk, the last first. -/
  entries : List (Place × DiskEntry) := []
  /-- The working folder. -/
  workingFolder : Place := []

/-- Why nothing can be written at a place. -/
inductive DiskError where
  /-- A file stands where a folder has to be made. -/
  | fileInTheWay
  /-- A file stands on the way to a folder that has to be made. -/
  | notAFolder
  /-- A folder stands where a file has to be written. -/
  | isFolder
  /-- The path leads nowhere. -/
  | noPlace
  /-- A name holds the character that ends names on a disk. -/
  | nullInName
  /-- A name is too long. -/
  | nameTooLong
deriving DecidableEq, Repr

namespace Disk

/-- What stands at a place. -/
def get? (d : Disk) (p : Place) : Option DiskEntry :=
  match d.entries.lookup p with
  | some e => some e
  | none =>
    if p.isSuffixOf d.workingFolder || d.entries.any fun e => p.isSuffixOf e.1 then some .folder
    else none

/-- Whether something stands at a place. -/
def holds (d : Disk) (p : Place) : Bool := (d.get? p).isSome

/-- Whether a folder stands at a place. -/
def isFolder (d : Disk) (p : Place) : Bool :=
  match d.get? p with
  | some .folder => true
  | _ => false

/-- Whether a file stands at a place. -/
def isFile (d : Disk) (p : Place) : Bool :=
  match d.get? p with
  | some (.file _) => true
  | _ => false

/-- Put something at a place. -/
def put (d : Disk) (p : Place) (e : DiskEntry) : Disk := { d with entries := (p, e) :: d.entries }

/-- What is put at a place stands there. -/
@[simp] theorem get?_put_self (d : Disk) (p : Place) (e : DiskEntry) :
    (d.put p e).get? p = some e := by
  simp [get?, put]

/-! ### Paths -/

/-- The names in a path. -/
def names (path : String) : List String := (Text.split '/' path.toList).map String.ofList

/-- Where a path starts: at the root if it starts with a slash. -/
def startOf (d : Disk) (path : String) : Place :=
  if path.toList.head? = some '/' then [] else d.workingFolder

/-- The place that a path leads to without a look at the disk. -/
def normalize (d : Disk) (path : String) : Place :=
  (names path).foldl Place.enter (d.startOf path)

/-- The place that a name leads to from a folder. -/
def step (d : Disk) (p : Place) (name : String) : Option Place :=
  if d.isFolder p then some (p.enter name) else none

/-- The place that a path leads to. -/
def locate (d : Disk) (path : String) : Option Place :=
  if path = "" then none else (names path).foldlM d.step (d.startOf path)

/-- The place that a path leads to, if something stands there. -/
def find? (d : Disk) (path : String) : Option Place := (d.locate path).filter d.holds

/-! ### Writing -/

/-- Whether no name can hold what a text holds. -/
def holdsNull (name : String) : Bool := name.toList.contains '\x00'

/-- Whether a name has more than 255 bytes. -/
def isTooLong (name : String) : Bool := decide (255 < name.utf8ByteSize)

/-- Make the folders on a way, from a place on. A name is looked at before the folder that it is to
be made in. -/
def makeWay (d : Disk) (p : Place) : List String → Except DiskError Disk
  | [] => .ok d
  | name :: rest =>
    let next := p.enter name
    if holdsNull name then .error .nullInName
    else
      match d.get? next with
      | some .folder => makeWay d next rest
      | some (.file _) =>
        if rest.head?.any holdsNull then .error .nullInName
        else .error (if rest.all (· == "") then .fileInTheWay else .notAFolder)
      | none =>
        if isTooLong name then .error .nameTooLong else makeWay (d.put next .folder) next rest

/-- The names in a path up to its last slash. -/
def folderNames (path : String) : List String := (names path).dropLast

/-- Write a file, and make the folders on the way to it. -/
def write (d : Disk) (path : String) (content : ByteArray) : Except DiskError Disk := do
  let d ← d.makeWay (d.startOf path) (folderNames path)
  if holdsNull path then .error .nullInName
  else
    match d.locate path with
    | none => .error .noPlace
    | some p =>
      if d.isFolder p then .error .isFolder
      else if p.head?.any isTooLong then .error .nameTooLong
      else .ok (d.put p (.file content))

end Disk

end TreeLint
