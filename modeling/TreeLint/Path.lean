import TreeLint.Disk

/-!
# Paths as texts

A path is a text of names with slashes between them. An absolute path starts with one slash, or
with exactly two, which a system may give a meaning of its own (`Path.root`). The operations here
look at the text alone and never at a disk:

* `Path.join` — a path with another one behind it;
* `Path.folder` — the path of the folder around, which for a root is the root itself;
* `Path.absolute` — a path from the working folder on, without dots and empty names.
-/

namespace TreeLint

namespace Path

/-- A path with another one behind it. An absolute path stands alone. -/
def join (p q : Text) : Text :=
  if q.head? = some '/' ∨ p = [] then q
  else if p.getLast? = some '/' then p ++ q
  else p ++ '/' :: q

/-- A path without the slashes at its end. -/
def trimmed (p : Text) : Text := (p.reverse.dropWhile (· == '/')).reverse

/-- The path of the folder around: what stands before the last slash. Slashes alone are kept. -/
def folder (p : Text) : Text :=
  let front := p.take (Text.afterLast '/' p)
  if front.all (· == '/') then front else trimmed front

theorem isPrefix_trimmed (p : Text) : trimmed p <+: p := by
  rw [trimmed, ← List.reverse_suffix, List.reverse_reverse]
  exact List.dropWhile_suffix _

theorem isPrefix_folder (p : Text) : folder p <+: p := by
  rw [folder]
  split
  · exact List.take_prefix _ p
  · exact (isPrefix_trimmed _).trans (List.take_prefix _ p)

/-- The way up gets shorter until it stays where it is. -/
theorem length_folder_lt {p : Text} (h : folder p ≠ p) : (folder p).length < p.length := by
  have hle := (isPrefix_folder p).length_le
  have hne : (folder p).length ≠ p.length := fun heq => h ((isPrefix_folder p).eq_of_length heq)
  omega

/-- The slashes at the start of a path that count: one, or two if there are exactly two. -/
def root (p : Text) : Text :=
  match p with
  | '/' :: '/' :: '/' :: _ => ['/']
  | '/' :: '/' :: _ => ['/', '/']
  | '/' :: _ => ['/']
  | _ => []

/-- The path to a place, behind the slashes that it starts with. -/
def ofPlace (root : Text) (p : Place) : Text :=
  root ++ List.intercalate ['/'] (p.reverse.map String.toList)

/-- An absolute path without empty names and dots. -/
def normal (p : Text) : Text :=
  ofPlace (root p) ((Disk.names (String.ofList p)).foldl Place.enter [])

/-- A path from the working folder on. -/
def absolute (workingFolder p : Text) : Text := normal (join workingFolder p)

end Path

end TreeLint
