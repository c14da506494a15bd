import TreeLint.Rule.AnyReturnType
import TreeLint.Rule.DuplicateCase
import TreeLint.Rule.FolderImport
import TreeLint.Rule.HandlerName
import TreeLint.Rule.ListKey
import TreeLint.Rule.MissingReturnType
import TreeLint.Rule.NoAny
import TreeLint.Rule.SwitchDefault

/-!
# The built-in rules

The rules in the order in which they run, which is also the order of their outputs: first those
for `.ts` alone, then those for both kinds, last those for `.tsx` alone.
-/

namespace TreeLint

/-- The built-in rules in running order. -/
def builtInRules : List Rule :=
  [NoAny.rule, MissingReturnType.rule, AnyReturnType.rule, FolderImport.rule, HandlerName.rule,
    SwitchDefault.rule, DuplicateCase.rule, ListKey.rule]

/-- No two built-in rules share an id. -/
theorem nodup_ids_builtInRules : (builtInRules.map Rule.id).Nodup := by
  decide

end TreeLint
