/-!
# Texts

A text is the list of its characters, so a character offset is a list index and a range of
offsets is a sublist. This module holds the operations on texts that the checks share:

* `Text.slice` — the characters of a range, clipped to the text;
* `Text.holds` — whether a text occurs somewhere inside another;
* `Text.split` — the segments between separators;
* `Text.afterLast` — where the last segment starts.
-/

namespace TreeLint

/-- A text, as the list of its characters. -/
abbrev Text := List Char

namespace Text

/-- The characters at the offsets `start, …, stop - 1`; offsets past the end give nothing. -/
def slice (t : Text) (start stop : Nat) : Text :=
  (t.take stop).drop start

theorem length_slice (t : Text) (start stop : Nat) :
    (t.slice start stop).length = min stop t.length - start := by
  simp [slice]

/-- Whether `needle` occurs in a text as consecutive characters. -/
def holds (needle : Text) : Text → Bool
  | [] => needle.isEmpty
  | c :: rest => needle.isPrefixOf (c :: rest) || holds needle rest

/-- The segments of a text between the separators; a text without separator is one segment. -/
def split (sep : Char) : Text → List Text
  | [] => [[]]
  | c :: rest =>
    if c = sep then [] :: split sep rest
    else
      match split sep rest with
      | [] => [[c]]
      | seg :: segs => (c :: seg) :: segs

theorem split_ne_nil (sep : Char) (t : Text) : split sep t ≠ [] := by
  cases t with
  | nil => simp [split]
  | cons c rest =>
    rw [split]
    split
    · simp
    · split <;> simp

/-- The offset just behind the last separator, `0` when there is none. -/
def afterLast (sep : Char) (t : Text) : Nat :=
  t.length - (t.reverse.takeWhile (· != sep)).length

theorem afterLast_le (sep : Char) (t : Text) : afterLast sep t ≤ t.length :=
  Nat.sub_le _ _

end Text

end TreeLint
