import TreeLint.Number.Shortest
import TreeLint.Text.Halves
import TreeLint.Value.Basic
import TreeLint.Yaml.Kind

/-!
# Writing YAML

`Yaml.write` gives a document for a value, in block style: an entry a line, two spaces for each
level, mappings sorted by their keys. A sequence under a key starts at the column of the key. An
empty collection is a pair of brackets.

A string is written plain where that reads back as the same string, else in single quotes, and in
double quotes if it holds a character that only an escape can write. Lines that have grown past
the column `Yaml.width` are broken at the next space. A key that is empty, long or of several
lines stands behind a question mark, and its value behind a colon on the next line.
-/

namespace TreeLint

/-- Whether a scalar is of a kind that is written here. -/
def Scalar.isPlain : Scalar → Bool
  | .halves _ | .foreign _ => false
  | _ => true

/-! ### Sorted mappings -/

/-- Where a scalar stands among numbers: far below or above all others, or at a quotient. -/
structure Rank where
  tier : Int := 0
  num : Int := 0
  den : Nat := 1

/-- The rank of a number. -/
def Scalar.rank? : Scalar → Option Rank
  | .bool b => some { num := if b then 1 else 0 }
  | .int n => some { num := n }
  | .float (.finite s m e) =>
    let r := Binary64.ratio m e
    some { num := if s then -r.1 else r.1, den := r.2 }
  | .float (.infinite s) => some { tier := if s then -1 else 1 }
  | _ => none

/-- Whether one number is not greater than another one. -/
def Rank.atMost (a b : Rank) : Bool :=
  decide (a.tier < b.tier) || (a.tier == b.tier && decide (a.num * b.den ≤ b.num * a.den))

/-- Whether two keys are strings or numbers in order. -/
def Scalar.inOrder : Scalar → Scalar → Bool
  | .str s, .str t => decide (s ≤ t)
  | a, b => a.rank?.any fun x => b.rank?.any x.atMost

/-- Whether a key is a string. -/
def Scalar.isText : Scalar → Bool
  | .str _ => true
  | _ => false

/-- The entries of a mapping sorted by their keys, if all keys are strings or all are numbers.
Others cannot be compared and stay where they are. -/
def Entries.sorted (es : Entries) : Entries :=
  if es.all (fun e => e.1.isText) || es.all (fun e => e.1.rank?.isSome) then
    es.mergeSort fun a b => a.1.inOrder b.1
  else es

/-- Sorting keeps the entries. -/
theorem Entries.perm_sorted (es : Entries) : es.sorted.Perm es := by
  rw [Entries.sorted]
  split
  · exact List.mergeSort_perm _ _
  · exact List.Perm.refl _

mutual
/-- A value with all its mappings sorted. -/
def Value.sorted : Value → Value
  | .scalar s => .scalar s
  | .list xs => .list (sortedItems xs)
  | .pair a b => .pair a.sorted b.sorted
  | .map es => .map (Entries.sorted (sortedEntries es))
/-- The items of a list with all their mappings sorted. -/
def sortedItems : List Value → List Value
  | [] => []
  | x :: xs => x.sorted :: sortedItems xs
/-- The entries of a mapping with all mappings inside them sorted. -/
def sortedEntries : List (Scalar × Value) → List (Scalar × Value)
  | [] => []
  | (k, v) :: es => (k, v.sorted) :: sortedEntries es
end

namespace Yaml

/-- The column past which a line is broken. -/
def width : Nat := 80

/-- The start of a new line. -/
def newline (indent : Nat) : Text := '\n' :: List.replicate indent ' '

/-! ### Styles of scalars -/

/-- How a scalar is written. -/
inductive Style where
  | plain
  | single
  | double
deriving DecidableEq, Repr

/-- Whether a character can be written without an escape. -/
def isOrdinary (c : Char) : Bool := c == '\n' || decide (' ' ≤ c ∧ c ≤ '~')

/-- Whether two characters stand side by side somewhere in a text. -/
def adjacent (a b : Char) : Text → Bool
  | c :: d :: rest => (c == a && d == b) || adjacent a b (d :: rest)
  | _ => false

/-- Whether a text starts like something other than a plain scalar. -/
def startsMarked : Text → Bool
  | [] => false
  | c :: rest =>
    "#,[]\x7b\x7d&*!|>'\"%@\x60".toList.contains c ||
      ((c == '?' || c == ':' || c == '-') && rest.head?.all fun d => d == ' ' || d == '\n') ||
      "---".toList.isPrefixOf (c :: rest) || "...".toList.isPrefixOf (c :: rest)

/-- Whether a colon at the end of a word, or a number sign at the front of one, stands inside a
text. -/
def holdsMark : Text → Bool
  | [] => false
  | [c] => c == ':'
  | c :: d :: rest =>
    (c == ':' && (d == ' ' || d == '\n')) || ((c == ' ' || c == '\n') && d == '#') ||
      holdsMark (d :: rest)

/-- Whether a string can be read back when it is written without quotes. -/
def allowsPlain (t : Text) : Bool :=
  t.all (fun c => isOrdinary c && c != '\n') && t.head? != some ' ' && t.getLast? != some ' ' &&
    !startsMarked t && !holdsMark t

/-- Whether a string can be read back when it is written in single quotes. -/
def allowsSingle (t : Text) : Bool :=
  t.all isOrdinary && !adjacent ' ' '\n' t && !adjacent '\n' ' ' t

/-- How a string is written. -/
def styleOf (isKey : Bool) (t : Text) : Style :=
  if Kind.ofPlain t = .str ∧ allowsPlain t then .plain
  else if allowsSingle t ∧ ¬(isKey ∧ '\n' ∈ t) then .single
  else .double

/-! ### Texts of scalars -/

/-- Where a scalar stands. -/
structure Frame where
  /-- Where a line of it that is not the first starts. -/
  indent : Nat
  /-- Whether its lines may be broken. -/
  folds : Bool
deriving DecidableEq, Repr

/-- The characters of a scalar without quotes or in single quotes. A line that is too long is
broken at a space between two words; a line feed of the text takes two, with those behind it. -/
def foldedText (f : Frame) (previous : Option Char) (column : Nat) : Text → Text
  | [] => []
  | ' ' :: rest =>
    let single := previous.any (· != ' ') && rest.head?.any (· != ' ')
    if f.folds && single && decide (width < column) then
      newline f.indent ++ foldedText f (some ' ') f.indent rest
    else ' ' :: foldedText f (some ' ') (column + 1) rest
  | '\n' :: rest =>
    let first : Text := if previous == some '\n' then [] else ['\n']
    let last : Text := if rest.head? == some '\n' then [] else List.replicate f.indent ' '
    first ++ '\n' :: (last ++ foldedText f (some '\n') f.indent rest)
  | c :: rest => c :: foldedText f (some c) (column + 1) rest

/-- In single quotes a single quote is written twice. -/
def doubled (t : Text) : Text := t.flatMap fun c => if c = '\x27' then [c, c] else [c]

/-- The letters that stand for characters behind a backslash. -/
def letters : List (Char × Char) :=
  [('\x00', '0'), ('\x07', 'a'), ('\x08', 'b'), ('\t', 't'), ('\n', 'n'), ('\x0b', 'v'),
    ('\x0c', 'f'), ('\r', 'r'), ('\x1b', 'e'), ('"', '"'), ('\\', '\\'), ('\x85', 'N'),
    ('\xa0', '_'), ('\u2028', 'L'), ('\u2029', 'P')]

/-- How a character is escaped in double quotes, if it has to be. -/
def escape? (c : Char) : Option Text :=
  match letters.lookup c with
  | some l => some ['\\', l]
  | none =>
    if ' ' ≤ c ∧ c ≤ '~' then none
    else
      let n := c.toNat
      let (mark, count) :=
        if n < 0x100 then ('x', 2) else if n < 0x10000 then ('u', 4) else ('U', 8)
      some ('\\' :: mark :: (hexDigits count n).map Char.toUpper)

/-- A line break inside double quotes. A backslash keeps a space behind it. -/
def quotedBreak (f : Frame) (next : Option Char) : Text :=
  '\\' :: (newline f.indent ++ if next == some ' ' then ['\\'] else [])

/-- The column behind a line break inside double quotes. -/
def columnBehind (f : Frame) (next : Option Char) : Nat :=
  f.indent + if next == some ' ' then 1 else 0

/-- The characters of a scalar in double quotes. A line that is too long is broken before a space,
before an ordinary character behind an escape, and behind an escape, but not next to a quote. -/
def escapedText (f : Frame) (first afterEscape : Bool) (column : Nat) : Text → Text
  | [] => []
  | c :: rest =>
    let inner := f.folds && !first && !rest.isEmpty
    match escape? c with
    | some e =>
      let column := column + e.length
      if inner && decide (width + 1 < column) then
        e ++ quotedBreak f rest.head? ++
          escapedText f false true (columnBehind f rest.head?) rest
      else e ++ escapedText f false true column rest
    | none =>
      if inner && (c == ' ' || afterEscape) && decide (width < column) then
        quotedBreak f (some c) ++
          c :: escapedText f false false (columnBehind f (some c) + 1) rest
      else c :: escapedText f false false (column + 1) rest

/-- A string that starts at a column. -/
def stringText (f : Frame) (column : Nat) (t : Text) : Text :=
  match styleOf (!f.folds) t with
  | .plain => foldedText f none column t
  | .single => '\x27' :: (foldedText f none (column + 1) (doubled t) ++ ['\x27'])
  | .double => '"' :: (escapedText f true false (column + 1) t ++ ['"'])

/-- A number with a fraction: there is always a point. -/
def floatText : Binary64 → Text
  | .infinite s => if s then "-.inf".toList else ".inf".toList
  | .nan => ".nan".toList
  | x =>
    let t := x.text.toList
    if t.elem '.' then t
    else t.takeWhile (· != 'e') ++ '.' :: '0' :: t.dropWhile (· != 'e')

/-- A scalar that starts at a column. One of a kind that is not written has no characters. -/
def scalarText (f : Frame) (column : Nat) : Scalar → Text
  | .null => "null".toList
  | .bool b => if b then "true".toList else "false".toList
  | .int n => (toString n).toList
  | .float x => floatText x
  | .str s => stringText f column s.toList
  | .halves _ | .foreign _ => []

/-! ### Blocks -/

/-- The length of the tag that a scalar could carry. -/
def tagLength : Scalar → Nat
  | .null | .bool _ => 6
  | .float _ => 7
  | .int _ | .str _ | .halves _ | .foreign _ => 5

/-- Whether a key can stand on one line with its value. -/
def isSimpleKey (k : Scalar) : Bool :=
  let t :=
    match k with
    | .str s => s.toList
    | k => scalarText ⟨0, false⟩ 0 k
  let isBreak (c : Char) : Bool := ['\n', '\x85', '\u2028', '\u2029'].contains c
  !t.isEmpty && !t.any isBreak && decide (t.length + tagLength k < 128)

/-- How a value continues the line behind a mark: the scalar or empty collection, if it is one. -/
def inline? (indent column : Nat) : Value → Option Text
  | .scalar s => some (scalarText ⟨indent, true⟩ column s)
  | .list [] => some ['[', ']']
  | .map [] => some ['\x7b', '\x7d']
  | _ => none

/-- Where the entries of a value under a key start: a sequence starts at the column of the key. -/
def columnUnder (indent : Nat) (k : Scalar) : Value → Nat
  | .list _ | .pair _ _ => if isSimpleKey k then indent else indent + 2
  | _ => indent + 2

/-- An entry of a mapping; `below` holds the entries of its value, if it has any. -/
def pair (indent : Nat) (k : Scalar) (v : Value) (below : Text) : Text :=
  if isSimpleKey k then
    let name := scalarText ⟨indent + 2, false⟩ indent k
    name ++ ':' ::
      match inline? (indent + 2) (indent + name.length + 2) v with
      | some t => ' ' :: t
      | none => newline (columnUnder indent k v) ++ below
  else
    let name := scalarText ⟨indent + 2, true⟩ (indent + 2) k
    '?' :: ' ' :: (name ++ newline indent ++ ':' :: ' ' ::
      (inline? (indent + 2) (indent + 2) v).getD below)

/-- An item of a sequence behind a hyphen; `below` holds the entries of its value, if it has any. -/
def item (indent : Nat) (first : Bool) (x : Value) (below : Text) : Text :=
  (if first then [] else newline indent) ++ '-' :: ' ' ::
    (inline? (indent + 2) (indent + 2) x).getD below

mutual
/-- The entries of a value, of which the first starts at the column `indent`. -/
def block (indent : Nat) : Value → Text
  | .scalar _ => []
  | .list xs => items indent true xs
  | .pair a b =>
    item indent true a (block (indent + 2) a) ++ item indent false b (block (indent + 2) b)
  | .map es => pairs indent true es
/-- The items of a sequence, each behind a hyphen. -/
def items (indent : Nat) (first : Bool) : List Value → Text
  | [] => []
  | x :: xs =>
    item indent first x (block (indent + 2) x) ++ items indent false xs
/-- The entries of a mapping. -/
def pairs (indent : Nat) (first : Bool) : List (Scalar × Value) → Text
  | [] => []
  | (k, v) :: es =>
    let entry := pair indent k v (block (columnUnder indent k v) v)
    (if first then [] else newline indent) ++ entry ++ pairs indent false es
end

/-- The document of a value. -/
def write (v : Value) : Text :=
  let v := v.sorted
  (inline? 2 0 v).getD (block 0 v) ++ ['\n']

end Yaml

end TreeLint
