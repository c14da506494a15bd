import TreeLint.Number.Decimal
import TreeLint.Number.Shortest
import TreeLint.Text.Halves
import TreeLint.Value.Basic

/-!
# Values inside messages

The text of a value in a message: lists in square brackets, pairs in round ones, mappings in
braces, strings quoted.
`Value.text` differs from `Value.display` only for a string by itself, which is not quoted.
-/

namespace TreeLint

/-- The text of a scalar in a message. -/
def Scalar.display : Scalar → String
  | .null => "None"
  | .bool true => "True"
  | .bool false => "False"
  | .int n => toString n
  | .float x => x.text
  | .str s => quoted s
  | .halves codes => String.ofList (Text.quotedCodes codes)
  | .foreign f => f.shown

/-- The text of a scalar by itself. -/
def Scalar.text : Scalar → String
  | .str s => s
  | .halves codes => String.ofList (Text.joined codes)
  | .foreign f => f.text
  | s => s.display

mutual
/-- The text of a value in a message. -/
def Value.display : Value → String
  | .scalar s => s.display
  | .list xs => "[" ++ ", ".intercalate (displayItems xs) ++ "]"
  | .pair a b => "(" ++ a.display ++ ", " ++ b.display ++ ")"
  | .map es => "\x7b" ++ ", ".intercalate (displayEntries es) ++ "\x7d"
/-- The texts of the items of a list. -/
def displayItems : List Value → List String
  | [] => []
  | x :: xs => x.display :: displayItems xs
/-- The texts of the entries of a mapping. -/
def displayEntries : List (Scalar × Value) → List String
  | [] => []
  | (k, v) :: es => (k.display ++ ": " ++ v.display) :: displayEntries es
end

/-- Whether all whole numbers in a scalar are short enough to be shown. -/
def Scalar.isShowable : Scalar → Bool
  | .int n => isShort n
  | .foreign f => f.showable
  | _ => true

/-- Whether all whole numbers in a value are short enough to be shown. -/
def Value.isShowable (v : Value) : Bool := v.allScalars Scalar.isShowable

theorem Value.isShowable_of_isString {v : Value} (h : v.isString = true) :
    v.isShowable = true := by
  unfold Value.isString at h
  split at h
  · rfl
  · rfl
  · cases h

/-- A message that ends in a value. If the value cannot be shown, the message says only that. -/
def Value.tell (v : Value) (message : String) : String :=
  if v.isShowable then message ++ v.display else tooLongToShow

/-- The text of a value by itself. -/
def Value.text : Value → String
  | .scalar s => s.text
  | v => v.display

/-- The characters of a value by itself. A string with halves of characters in it is no text. -/
def Value.text? : Value → Option Text
  | .scalar (.halves codes) => Text.ofCodes? codes
  | v => some v.text.toList

end TreeLint
