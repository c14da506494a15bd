import TreeLint.Config.Basic
import TreeLint.Frontend
import TreeLint.Registry
import TreeLint.Warning

/-!
# The engine

An analysis parses a text once and runs every selected rule on its tree, in the order of the
registry. A rule that fails contributes nothing, and outputs outside the text are dropped, both
with a warning. The severities of the configuration are laid over those of the rules, and at the
end the diagnostics may be marked as highlights too. A text without a usable tree gives an empty
analysis. `Engine.fix` applies the edits of an analysis.

The configuration is an argument of every call. An engine itself holds its rules and its
frontend, which was set up by the configuration that the engine was made for.
-/

namespace TreeLint

/-- Why an analysis ends without a result. -/
inductive Failure where
  /-- The file kind is not supported. -/
  | kind (e : UnsupportedKind)
  /-- The configuration cannot be used. -/
  | config (e : ConfigError)
  /-- A rule yielded something that is no output. -/
  | stray
  /-- The edits cannot be applied together. -/
  | edits (e : EditError)
deriving Repr

/-- Rules with a frontend. -/
structure Engine where
  registry : Registry := Registry.builtIn
  frontend : Frontend := {}

namespace Engine

/-- The engine for a configuration. -/
def forConfig (c : Config) (registry : Registry) : Engine where
  registry := registry
  frontend := { rejectsErrors := c.rejectSyntaxErrors.truthy }

/-- The rules that a configuration selects for a file kind. -/
def rulesFor (e : Engine) (c : Config) (kind : FileKind) : Except Failure (List Rule) :=
  match e.registry.enabledBy? c.enabledRules kind.name with
  | some rules => .ok rules
  | none => .error (.config .notPatterns)

/-- Keep the outputs that lie in a text of length `n`. -/
def keepFitting (ruleId : String) (n : Nat) : List Yield → Attempt Failure (List Output)
  | [] => return []
  | .stray _ :: _ => throw .stray
  | .output o :: rest => do
    if o.fits n then
      return o :: (← keepFitting ruleId n rest)
    else
      Attempt.warn (.outputDropped ruleId o)
      keepFitting ruleId n rest

/-- What a rule puts out on a source. -/
def runRule (rule : Rule) (s : Source) (o : Options) : Attempt Failure (List Output) :=
  let run := rule.visit s o
  match run.failure with
  | some _ => do
    Attempt.warn (.ruleFailed rule.id)
    return []
  | none => keepFitting rule.id s.text.length run.results

/-- Take over a result of the configuration. -/
def fromConfig {α : Type} (x : Except ConfigError α) : Attempt Failure α :=
  Attempt.ofExcept (x.mapError Failure.config)

/-- What rules put out under a configuration, one rule after the other. -/
def outputs (c : Config) (s : Source) : List Rule → Attempt Failure (List Output)
  | [] => return []
  | rule :: rest => do
    let o ← fromConfig (c.options rule.id)
    let kept ← runRule rule s o
    let graded ← fromConfig (kept.mapM c.regrade)
    return graded ++ (← outputs c s rest)

/-- The analysis of a source by rules. -/
def analyzeSource (c : Config) (rules : List Rule) (s : Source) : Attempt Failure Analysis := do
  let all ← outputs c s rules
  let a := Analysis.extend {} all
  return if c.highlightDiagnostics.truthy then a.highlighted else a

/-- The source that the rules are given: a text with its tree. -/
def sourceOf (kind : FileKind) (text : Text) (root : Node) : Source :=
  { kind := kind.name, text, tree := some (.rooted root) }

/-- Analyze a text for which the parser gives an answer. The engine afterwards may hold another
parser. -/
def analyze (e : Engine) (c : Config) (text : Text) (kind : Option String)
    (answer : ParserAnswer) : Attempt Failure Analysis × Engine :=
  match FileKind.ofName kind with
  | .error err => (throw (.kind err), e)
  | .ok k =>
    match e.rulesFor c k with
    | .error err => (throw err, e)
    | .ok rules =>
      let (root, frontend) := e.frontend.parse k answer
      let e := { e with frontend }
      match root with
      | .error err => (do Attempt.warn (.parseFailed k err.message); return {}, e)
      | .ok root => (analyzeSource c rules (sourceOf k text root), e)

/-- Apply the edits of an analysis to its text. -/
def applyEdits (text : Text) (a : Analysis) : Except Failure Text :=
  (Edit.applyAll text a.edits).mapError Failure.edits

/-- The text with every edit applied that an analysis proposes. -/
def fix (e : Engine) (c : Config) (text : Text) (kind : Option String)
    (answer : ParserAnswer) : Attempt Failure Text × Engine :=
  let (a, e) := e.analyze c text kind answer
  (do Attempt.ofExcept (applyEdits text (← a)), e)

end Engine

end TreeLint
