import TreeLint.Edit
import TreeLint.Range
import TreeLint.Value.Display

/-!
# What an analysis reports

A rule yields outputs of three classes: diagnostics with a message, highlights without one, and
edits. An analysis collects them, each class in the order of the yields. A host's rule may also
yield a value that is no output at all; adding one is refused.
-/

namespace TreeLint

/-- The two degrees that a configuration may give a diagnostic. -/
inductive Severity where
  | error
  | warning
deriving DecidableEq, Repr

namespace Severity

/-- The name of a severity. -/
def name : Severity → String
  | .error => "error"
  | .warning => "warning"

/-- The severity of a name. -/
def ofName? (s : String) : Option Severity :=
  if s = "error" then some .error else if s = "warning" then some .warning else none

theorem ofName?_name (s : Severity) : ofName? s.name = some s := by
  cases s <;> decide

end Severity

/-- A message about a range. -/
structure Diagnostic where
  range : OffsetRange
  message : String
  ruleId : String
  /-- A rule may give any name, so this is wider than `Severity`. -/
  severity : String
deriving DecidableEq, Repr

/-- A range to mark, without a message. -/
structure Highlight where
  range : OffsetRange
  ruleId : String := ""
deriving DecidableEq, Repr

/-- What a rule puts out. -/
inductive Output where
  | diagnostic (d : Diagnostic)
  | highlight (h : Highlight)
  | edit (e : Edit)
deriving DecidableEq, Repr

namespace Output

/-- Where an output starts. -/
def start : Output → Int
  | .diagnostic d => d.range.start
  | .highlight h => h.range.start
  | .edit e => e.start

/-- Where an output ends. -/
def stop : Output → Int
  | .diagnostic d => d.range.stop
  | .highlight h => h.range.stop
  | .edit e => e.stop

/-- Whether an output lies in a text of a length. -/
def fits (n : Nat) (o : Output) : Bool :=
  decide (0 ≤ o.start ∧ o.start ≤ o.stop ∧ o.stop ≤ n)

end Output

/-- What a rule yields: an output, or some other value by mistake. -/
inductive Yield where
  | output (o : Output)
  | stray (v : Value)
deriving Repr

/-- A yielded value that is no output. -/
structure StrayOutput where
  value : Value
deriving Repr

/-- The wording of a refused output. -/
def StrayOutput.message (e : StrayOutput) : String :=
  "unsupported rule output: " ++ e.value.display

/-- Everything one pass reported. -/
structure Analysis where
  diagnostics : List Diagnostic := []
  highlights : List Highlight := []
  edits : List Edit := []
deriving DecidableEq, Repr

namespace Analysis

/-- Add an output behind those of its class. -/
def add (a : Analysis) : Output → Analysis
  | .diagnostic d => { a with diagnostics := a.diagnostics ++ [d] }
  | .highlight h => { a with highlights := a.highlights ++ [h] }
  | .edit e => { a with edits := a.edits ++ [e] }

/-- Add outputs in order. -/
def extend (a : Analysis) (outputs : List Output) : Analysis :=
  outputs.foldl add a

@[simp] theorem extend_nil (a : Analysis) : a.extend [] = a := rfl

/-- Add what a rule yielded, unless it is no output. -/
def addYield (a : Analysis) : Yield → Except StrayOutput Analysis
  | .output o => .ok (a.add o)
  | .stray v => .error ⟨v⟩

/-- The message of the first diagnostic that covers an offset. -/
def messageAt (a : Analysis) (offset : Int) : Option String :=
  (a.diagnostics.find? (·.range.covers offset)).map (·.message)

/-- Whether nothing was reported. -/
def isEmpty (a : Analysis) : Bool :=
  a.diagnostics.isEmpty && a.highlights.isEmpty && a.edits.isEmpty

/-- Mark the range of every diagnostic behind the highlights of the rules. -/
def highlighted (a : Analysis) : Analysis :=
  { a with highlights := a.highlights ++ a.diagnostics.map fun d => ⟨d.range, d.ruleId⟩ }

end Analysis

end TreeLint
