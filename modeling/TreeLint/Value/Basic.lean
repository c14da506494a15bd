import TreeLint.Number.Binary64

/-!
# Configuration values

What a configuration file may hold: scalars, lists, pairs, and mappings whose keys are scalars and
whose entries keep their order. An option of a rule may be given any of these, so the checks ask a
value questions (`Value.truthy`, `Value.find?`) and do not assume a shape.
-/

namespace TreeLint

/-- A value of a kind that no setting uses, such as a date. It is kept by how it is told: in a
message, and by itself. -/
structure Foreign where
  shown : String
  text : String := shown
  truthy : Bool := true
  /-- Whether all whole numbers in it are short enough to be shown. -/
  showable : Bool := true
  /-- The name of the collection around it that it stands for, if it is such a one. -/
  loop : Option String := none
deriving DecidableEq, Repr

/-- A value without parts. -/
inductive Scalar where
  | null
  | bool (b : Bool)
  | int (n : Int)
  | float (x : Binary64)
  | str (s : String)
  /-- A string with halves of characters in it, by its codes. -/
  | halves (codes : List Nat)
  | foreign (f : Foreign)
deriving DecidableEq, Repr

/-- A configuration value. -/
inductive Value where
  | scalar (s : Scalar)
  | list (items : List Value)
  | pair (first second : Value)
  | map (entries : List (Scalar × Value))
deriving Repr

/-- The entries of a mapping, in order. -/
abbrev Entries := List (Scalar × Value)

namespace Scalar

/-- The integer that a scalar stands for as a number, if it is a whole one. -/
def int? : Scalar → Option Int
  | .bool b => some (if b then 1 else 0)
  | .int n => some n
  | _ => none

/-- Whether two scalars are the same key. Numbers are compared by value, and the truth values
count as the numbers one and zero. -/
def sameKey (a b : Scalar) : Bool :=
  match a.int?, b.int? with
  | some m, some n => m == n
  | some m, none => match b with
    | .float y => y.equalsInt m
    | _ => false
  | none, some n => match a with
    | .float x => x.equalsInt n
    | _ => false
  | none, none => match a, b with
    | .float x, .float y => x.equals y
    | _, _ => a == b

/-- On strings, being the same key is being the same string. -/
theorem sameKey_str (s t : String) : sameKey (.str s) (.str t) = decide (s = t) := by
  by_cases h : s = t <;> simp [sameKey, int?, h]

/-- Whether a scalar counts as true: everything but null, false, zero and the empty string. -/
def truthy : Scalar → Bool
  | .null => false
  | .bool b => b
  | .int n => n != 0
  | .float x => !x.isZero
  | .str s => s != ""
  | .halves codes => !codes.isEmpty
  | .foreign f => f.truthy

end Scalar

namespace Entries

/-- The value under a key. -/
def get? (key : Scalar) : Entries → Option Value
  | [] => none
  | (k, v) :: rest => if k.sameKey key then some v else get? key rest

/-- Put a value under a key: in the place of the old one, or behind all entries. -/
def put (key : Scalar) (value : Value) : Entries → Entries
  | [] => [(key, value)]
  | (k, v) :: rest => if k.sameKey key then (k, value) :: rest else (k, v) :: put key value rest

/-- Put all entries of a second mapping, in order. -/
def update (base extra : Entries) : Entries :=
  extra.foldl (fun acc e => put e.1 e.2 acc) base

@[simp] theorem get?_nil (key : Scalar) : get? key [] = none := rfl

@[simp] theorem update_nil (base : Entries) : update base [] = base := rfl

end Entries

namespace Value

/-- The empty value. -/
def null : Value := .scalar .null

/-- A truth value. -/
def bool (b : Bool) : Value := .scalar (.bool b)

/-- A whole number. -/
def int (n : Int) : Value := .scalar (.int n)

/-- A string. -/
def str (s : String) : Value := .scalar (.str s)

/-- A mapping from names. -/
def object (fields : List (String × Value)) : Value :=
  .map (fields.map fun f => (.str f.1, f.2))

/-- Whether a value counts as true: a list or a mapping does when it has entries. -/
def truthy : Value → Bool
  | .scalar s => s.truthy
  | .list xs => !xs.isEmpty
  | .pair _ _ => true
  | .map es => !es.isEmpty

/-- The string a value is. -/
def str? : Value → Option String
  | .scalar (.str s) => some s
  | _ => none

/-- Whether a value is a string, of characters or with halves of them. -/
def isString : Value → Bool
  | .scalar (.str _) | .scalar (.halves _) => true
  | _ => false

/-- Whether a value is a list of strings. -/
def isStringList : Value → Bool
  | .list xs => xs.all isString
  | _ => false

mutual
/-- Whether all scalars in a value pass a test, those that are keys included. -/
def allScalars (p : Scalar → Bool) : Value → Bool
  | .scalar s => p s
  | .list xs => allInItems p xs
  | .pair a b => a.allScalars p && b.allScalars p
  | .map es => allInEntries p es
/-- Whether all scalars in the items of a list pass a test. -/
def allInItems (p : Scalar → Bool) : List Value → Bool
  | [] => true
  | x :: xs => x.allScalars p && allInItems p xs
/-- Whether all scalars in the entries of a mapping pass a test. -/
def allInEntries (p : Scalar → Bool) : List (Scalar × Value) → Bool
  | [] => true
  | (k, v) :: es => p k && v.allScalars p && allInEntries p es
end

/-- The entries of a mapping. -/
def entries? : Value → Option Entries
  | .map es => some es
  | _ => none

/-- The value under a name of a mapping. -/
def find? (v : Value) (name : String) : Option Value :=
  v.entries?.bind (Entries.get? (.str name))

end Value

end TreeLint
