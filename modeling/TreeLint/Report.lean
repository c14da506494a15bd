import TreeLint.Analysis
import TreeLint.Position
import TreeLint.Value.Json

/-!
# Reports

An analysis as a value that a host can show: every item has its offsets and, beside them, its
range in lines and columns. An edit holds unchecked offsets, so a report of one in the wrong order
is refused.

`Report.rangeErrors` checks such a range as it comes back from a host.
-/

namespace TreeLint

namespace Report

/-- The version of the report format. -/
def protocolVersion : String := "1"

/-- The version of the engine. -/
def engineVersion : String := "0.1.0"

/-- A natural number as a value. -/
def nat (n : Nat) : Value := .int n

/-- A range in lines and columns. -/
def lineRange (p : PositionIndex) (r : OffsetRange) : Value :=
  let a := p.lineColumn r.start
  let b := p.lineColumn r.stop
  .object [("startLine", nat a.1), ("startCol", nat a.2), ("endLine", nat b.1),
    ("endCol", nat b.2)]

/-- A diagnostic. -/
def diagnostic (p : PositionIndex) (d : Diagnostic) : Value :=
  .object [("rule_id", .str d.ruleId), ("message", .str d.message), ("severity", .str d.severity),
    ("start", nat d.range.start), ("end", nat d.range.stop), ("range", lineRange p d.range)]

/-- A highlight. -/
def highlight (p : PositionIndex) (h : Highlight) : Value :=
  .object [("rule_id", .str h.ruleId), ("start", nat h.range.start), ("end", nat h.range.stop),
    ("range", lineRange p h.range)]

/-- An edit. -/
def edit (p : PositionIndex) (e : Edit) : Except RangeError Value := do
  let r ← OffsetRange.of e.start e.stop
  return .object [("rule_id", .str e.ruleId), ("start", .int e.start), ("end", .int e.stop),
    ("new_text", .str (String.ofList e.newText)), ("range", lineRange p r)]

/-- An analysis, with lines and columns read from the tables of a text. -/
def ofAnalysis (p : PositionIndex) (a : Analysis) : Except RangeError Value := do
  let edits ← a.edits.mapM (edit p)
  return .object [("tvcheck.protocol", .str protocolVersion),
    ("engine_version", .str engineVersion),
    ("diagnostics", .list (a.diagnostics.map (diagnostic p))),
    ("highlights", .list (a.highlights.map (highlight p))),
    ("edits", .list edits)]

/-- The keys of a range in lines and columns. -/
def rangeKeys : List String := ["startLine", "startCol", "endLine", "endCol"]

/-- Whether a value counts lines or columns. The truth values count as numbers. -/
def isCount : Value → Bool
  | .scalar (.bool _) => true
  | .scalar (.int n) => decide (0 ≤ n)
  | _ => false

/-- What is wrong with one number of a range. -/
def keyError? (es : Entries) (key : String) : Option String :=
  let v := (Entries.get? (.str key) es).getD .null
  if isCount v then none
  else some ("range." ++ key ++ " must be a non-negative integer, got " ++ v.display)

/-- The keys that do not belong to a range, in order. -/
def extraKeys (es : Entries) : List String :=
  (es.filterMap fun e => (Value.scalar e.1).str?.filter fun k => !rangeKeys.contains k).mergeSort
    fun a b => decide (a ≤ b)

/-- What is wrong with a range in lines and columns. -/
def rangeErrors (es : Entries) : List String :=
  let extra := extraKeys es
  rangeKeys.filterMap (keyError? es) ++
    if extra.isEmpty then []
    else ["range has unexpected keys: " ++ (Value.list (extra.map Value.str)).display]

end Report

end TreeLint
