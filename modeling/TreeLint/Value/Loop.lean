import TreeLint.Value.Display

/-!
# Values inside themselves

A document can put a collection inside itself. Such a value has no end, so inside itself the
collection is only named (`Value.within`), and a message shows its empty brackets there.

When an entry is taken out of a mapping, the mapping is not around it any more: where the entry
names the mapping, the mapping has to stand, and inside that the entry is what is only named
(`Value.unfolded`).
-/

namespace TreeLint

namespace Value

/-- A collection inside itself. -/
def within (name : Option String) (isMapping : Bool) : Value :=
  .scalar (.foreign { shown := if isMapping then "\x7b...\x7d" else "[...]", loop := name })

/-- The name of the collection that a scalar stands for. -/
def loopName? : Scalar → Option String
  | .foreign f => f.loop
  | _ => none

mutual
/-- A value with another one in the places where a collection is named. -/
def replaceLoop (name : String) (new : Value) : Value → Value
  | .scalar s => if loopName? s = some name then new else .scalar s
  | .list xs => .list (replaceItems name new xs)
  | .pair a b => .pair (replaceLoop name new a) (replaceLoop name new b)
  | .map es => .map (replaceEntries name new es)
/-- The items of a list with another value where a collection is named. -/
def replaceItems (name : String) (new : Value) : List Value → List Value
  | [] => []
  | x :: xs => replaceLoop name new x :: replaceItems name new xs
/-- The entries of a mapping with another value where a collection is named. -/
def replaceEntries (name : String) (new : Value) : List (Scalar × Value) → List (Scalar × Value)
  | [] => []
  | (k, v) :: es => (k, replaceLoop name new v) :: replaceEntries name new es
end

/-- How a value is named inside itself. Only collections are. -/
def closed : Value → Value
  | .list _ => within none false
  | .map _ => within none true
  | v => v

/-- A mapping of some name whose entries can be taken out. -/
def unfolded (name : String) : Value → Value
  | .map es => .map (es.map fun e =>
      (e.1, replaceLoop name (.map (Entries.put e.1 e.2.closed es)) e.2))
  | v => v

end Value

end TreeLint
