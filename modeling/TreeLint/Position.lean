import TreeLint.Text.Basic

/-!
# Positions

Three ways to name a place in a text: the offset of a character, the offset of a UTF-8 byte, and
a line with a column, all counted from zero. `PositionIndex` holds the tables of one text that
the conversions read.

A line ends at a carriage return with a line feed, at a lone carriage return, or at a line feed.
Offsets and bytes outside the text are moved to its nearer end. A byte inside a character stands
for that character, and a column past the end of its line for the end of the line.

A text of ASCII characters has no byte table: there an offset is its own byte.
-/

namespace TreeLint

/-- The line breaks of a text from offset `i` on, as pairs of the offset where a break starts and
the offset where the next line starts. -/
def lineBreaks (i : Nat) : Text → List (Nat × Nat)
  | [] => []
  | '\r' :: '\n' :: rest => (i, i + 2) :: lineBreaks (i + 2) rest
  | c :: rest =>
    if c = '\r' ∨ c = '\n' then (i, i + 1) :: lineBreaks (i + 1) rest
    else lineBreaks (i + 1) rest

/-- The byte at which each character starts when the first one starts at byte `b`, and after
them the byte at which the text ends. -/
def byteTable (b : Nat) : Text → List Nat
  | [] => [b]
  | c :: rest => b :: byteTable (b + c.utf8Size) rest

theorem length_byteTable (b : Nat) (t : Text) : (byteTable b t).length = t.length + 1 := by
  induction t generalizing b with
  | nil => rfl
  | cons c rest ih => simp [byteTable, ih]

/-- How many entries at the front of a table are at most `x`. In an ascending table these are all
such entries. -/
def rank (table : List Nat) (x : Nat) : Nat :=
  (table.takeWhile (· ≤ x)).length

/-- The tables of one text. -/
structure PositionIndex where
  /-- The text. -/
  text : Text
  /-- The offset at which each line starts. -/
  lineStarts : List Nat
  /-- The offset at which each line ends, its line break left out. -/
  lineEnds : List Nat
  /-- The byte at which each character starts, and the length in bytes; absent for ASCII texts. -/
  byteStarts : Option (List Nat)
deriving Repr, DecidableEq

namespace PositionIndex

/-- Build the tables of a text. -/
def ofText (t : Text) : PositionIndex where
  text := t
  lineStarts := 0 :: (lineBreaks 0 t).map Prod.snd
  lineEnds := (lineBreaks 0 t).map Prod.fst ++ [t.length]
  byteStarts := if t.all (fun c => decide (c.val < 128)) then none else some (byteTable 0 t)

@[simp] theorem text_ofText (t : Text) : (ofText t).text = t := rfl

/-- The number of lines; a text without a break has one. -/
def lineCount (p : PositionIndex) : Nat := p.lineStarts.length

/-- Move an offset into the text. -/
def clamp (p : PositionIndex) (offset : Int) : Nat :=
  min offset.toNat p.text.length

theorem clamp_le (p : PositionIndex) (offset : Int) : p.clamp offset ≤ p.text.length :=
  Nat.min_le_right _ _

theorem natCast_clamp (t : Text) (offset : Int) :
    ((ofText t).clamp offset : Int) = max 0 (min offset t.length) := by
  rw [clamp, text_ofText]
  omega

theorem clamp_natCast (t : Text) {o : Nat} (ho : o ≤ t.length) : (ofText t).clamp o = o := by
  rw [clamp, text_ofText, Int.toNat_natCast, Nat.min_eq_left ho]

/-- The line and the column of an offset. -/
def lineColumn (p : PositionIndex) (offset : Int) : Nat × Nat :=
  let o := p.clamp offset
  let line := rank p.lineStarts o - 1
  (line, o - p.lineStarts.getD line 0)

/-- The offset of a line and a column. A line before the first gives the start of the text, a
line after the last its end. -/
def offsetAt (p : PositionIndex) (line column : Int) : Nat :=
  if line < 0 then 0
  else
    match p.lineStarts[line.toNat]?, p.lineEnds[line.toNat]? with
    | some start, some stop => start + min column.toNat (stop - start)
    | _, _ => p.text.length

/-- The character offset of a byte. -/
def offsetOfByte (p : PositionIndex) (byte : Int) : Nat :=
  match p.byteStarts with
  | none => p.clamp byte
  | some table =>
    if byte ≤ 0 then 0
    else if table.getLastD 0 ≤ byte then p.text.length
    else rank table byte.toNat - 1

/-- The byte at which the character at an offset starts. -/
def byteOfOffset (p : PositionIndex) (offset : Int) : Nat :=
  match p.byteStarts with
  | none => p.clamp offset
  | some table => table.getD (p.clamp offset) 0

end PositionIndex

/-- The line and the column of an offset in a text. -/
def lineColumnIn (t : Text) (offset : Int) : Nat × Nat :=
  (PositionIndex.ofText t).lineColumn offset

end TreeLint
