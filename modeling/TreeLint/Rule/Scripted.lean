import TreeLint.Rule.Basic

/-!
# Scripted rules

A host may describe a rule by a script: the steps it takes on every visit, whatever the source. A
step yields an output as given, yields a value that is no output, or gives up; two further steps
look at the source, one at an option of the rule.
-/

namespace TreeLint

/-- A step of a scripted rule. -/
inductive ScriptStep where
  /-- Yield a diagnostic with everything given. -/
  | diagnostic (start stop : Int) (message ruleId severity : String)
  /-- Yield a highlight. -/
  | highlight (start stop : Int) (ruleId : String)
  /-- Yield an edit, which may reach anywhere. -/
  | edit (e : Edit)
  /-- Yield a diagnostic of the rule itself. -/
  | own (start stop : Int) (message : String)
  /-- Yield a diagnostic over the whole tree that shows an option. -/
  | option (name : String) (default : Value)
  /-- Yield a value that is no output. -/
  | stray (v : Value)
  /-- Give up. -/
  | raise
deriving Repr

namespace ScriptStep

/-- The range between two offsets, or the failure of the visit. -/
def rangeOf (start stop : Int) : Except RuleFailure OffsetRange :=
  match OffsetRange.of start stop with
  | .ok r => .ok r
  | .error e => .error (.range e)

/-- A diagnostic over the whole tree that shows a value. -/
def showing (i : RuleInfo) (s : Source) (v : Value) : Except RuleFailure (List Yield) :=
  match s.tree with
  | some (.rooted root) => do
    if !v.isShowable then throw .longNumber
    return [.output (i.diagnostic (← s.span root) v.text)]
  | _ => .error .rootless

/-- What a step yields. -/
def run (i : RuleInfo) (s : Source) (o : Options) : ScriptStep → Except RuleFailure (List Yield)
  | .diagnostic a b m r v => do return [.output (.diagnostic ⟨← rangeOf a b, m, r, v⟩)]
  | .highlight a b r => do return [.output (.highlight ⟨← rangeOf a b, r⟩)]
  | .edit e => .ok [.output (.edit e)]
  | .own a b m => do return [.output (i.diagnostic (← rangeOf a b) m)]
  | .option name default => showing i s (Options.get o name default)
  | .stray v => .ok [.stray v]
  | .raise => .error .raised

end ScriptStep

/-- The rule of a script. -/
def Rule.scripted (i : RuleInfo) (steps : List ScriptStep) : Rule :=
  ⟨i, fun s o => Run.each (ScriptStep.run i s o) steps⟩

end TreeLint
