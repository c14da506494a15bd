import TreeLint.Glob
import TreeLint.Rule.BuiltIn

/-!
# Registries of rules

A registry holds rules in the order of their registration, which is the order in which they run,
and an index by id, which keeps that order as well. The first rule registered under an id stays;
later ones are ignored. Rules are selected by the file kind and by patterns on their ids.

Patterns come from a configuration, so they may be a value of any shape. `Registry.enabledBy?`
looks at them only as far as it has to: an item that is no string does no harm as long as every
rule is selected by a pattern before it.
-/

namespace TreeLint

/-- Rules in order, with an index by id. -/
structure Registry where
  rules : List Rule := []
  /-- The rules by their ids, the first one put in first. -/
  index : List (String × Rule) := []

namespace Registry

/-- The ids in the index, in order. -/
def ids (r : Registry) : List String := r.index.map Prod.fst

/-- The rule of an id, as the index has it. -/
def get? (r : Registry) (id : String) : Option Rule := r.index.lookup id

/-- Put a rule behind the others, unless its id is taken. -/
def register (r : Registry) (rule : Rule) : Registry :=
  if r.ids.contains rule.id then r
  else ⟨r.rules ++ [rule], r.index ++ [(rule.id, rule)]⟩

/-- The registry of a list of rules. -/
def ofRules (rules : List Rule) : Registry := rules.foldl register {}

/-- The registry of the built-in rules. -/
def builtIn : Registry := ofRules builtInRules

/-- The registry without its rules. -/
def clear (_ : Registry) : Registry := {}

/-- How many rules there are. -/
def size (r : Registry) : Nat := r.rules.length

/-- The rules that run on a file kind. -/
def forKind (r : Registry) (kind : String) : List Rule :=
  r.rules.filter (·.info.kinds.contains kind)

/-- The rules that run on a file kind and whose id matches a pattern. Without patterns there are
none, and a lone star takes all. -/
def enabled (r : Registry) (patterns : List String) (kind : String) : List Rule :=
  if patterns = [] then []
  else if patterns = ["*"] then r.forKind kind
  else (r.forKind kind).filter fun rule => patterns.any (Glob.matchesText · rule.id)

/-- The string of one code. -/
def ofCode (n : Nat) : Value :=
  if n.isValidChar then .str (String.singleton (Char.ofNat n)) else .scalar (.halves [n])

/-- The patterns a value holds: the items of a list, the keys of a mapping, and the characters of
a string, each by itself. Another value holds none. -/
def patternsIn? : Value → Option (List Value)
  | .scalar (.str s) => some (s.toList.map fun c => .str (String.singleton c))
  | .scalar (.halves codes) => some (codes.map ofCode)
  | .scalar _ => none
  | .list xs => some xs
  | .pair a b => some [a, b]
  | .map es => some (es.map fun e => .scalar e.1)

/-- Whether one of the patterns matches an id, unless one that is no string comes before any that
matches. -/
def anyMatches? (id : String) : List Value → Option Bool
  | [] => some false
  | .scalar (.str p) :: ps => if Glob.matchesText p id then some true else anyMatches? id ps
  | .scalar (.halves p) :: ps =>
    if Glob.matchesCodes p (codesOf id) then some true else anyMatches? id ps
  | _ :: _ => none

/-- The rules whose id matches one of the patterns, unless a pattern stands in the way. -/
def select? (patterns : List Value) : List Rule → Option (List Rule)
  | [] => some []
  | rule :: rest => do
    let hit ← anyMatches? rule.id patterns
    let others ← select? patterns rest
    return if hit then rule :: others else others

/-- The rules that run on a file kind and are selected by a value. A value that counts as false
selects none. One that cannot be used for a rule of the kind gives no answer. -/
def enabledBy? (r : Registry) (patterns : Value) (kind : String) : Option (List Rule) :=
  if !patterns.truthy then some []
  else
    match patternsIn? patterns, r.forKind kind with
    | some ps, rules => select? ps rules
    | none, [] => some []
    | none, _ :: _ => none

end Registry

end TreeLint
