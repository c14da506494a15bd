import TreeLint.Path

/-!
# The nearest configuration file

A configuration file has one of four names. It is searched for from a folder upwards: the first
folder that holds one of the names ends the search, and among the names there the order of
`Config.fileNames` decides. A search that starts at a file starts in the folder around it. The
search goes by paths; where something stands, and where a file, is all it asks of a disk.
-/

namespace TreeLint

namespace Config

/-- The names of configuration files, the preferred ones first. -/
def fileNames : List String := [".tvcheck.yml", ".tvcheck.yaml", "tvcheck.yml", "tvcheck.yaml"]

/-- The configuration file in a folder; `holds` tells where something stands. -/
def fileIn (holds : Text → Bool) (folder : Text) : Option Text :=
  (fileNames.map fun name => Path.join folder name.toList).find? holds

/-- The configuration file in a folder or in one of the folders around it, the nearest first. The
way up ends at the folder that is around itself. -/
def nearest (holds : Text → Bool) (folder : Text) : Option Text :=
  match fileIn holds folder with
  | some p => some p
  | none =>
    if Path.folder folder = folder then none else nearest holds (Path.folder folder)
termination_by folder.length
decreasing_by exact Path.length_folder_lt ‹_›

/-- The configuration file that counts for a path. -/
def search (holds isFile : Text → Bool) (workingFolder path : Text) : Option Text :=
  let start := Path.absolute workingFolder path
  nearest holds (if isFile start then Path.folder start else start)

/-- The place of the configuration file that counts for a path on a disk. -/
def findFile (d : Disk) (path : String) : Option Place :=
  let place? (p : Text) : Option Place := d.find? (String.ofList p)
  (search (fun p => (place? p).isSome) (fun p => (place? p).any d.isFile)
    (Path.ofPlace ['/'] d.workingFolder) path.toList).bind place?

end Config

end TreeLint
