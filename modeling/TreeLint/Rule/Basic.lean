import TreeLint.Analysis
import TreeLint.Position
import TreeLint.Tree.Query

/-!
# Rules

A rule says what it is (`RuleInfo`) and visits one source at a time. A visit yields values in
order and may fail on the way; what it yielded before stays known (`Run`). Rules keep nothing
between visits, so a rule is a function of the source and its options.
-/

namespace TreeLint

/-- What a rule says about itself. -/
structure RuleInfo where
  id : String
  category : String
  description : String := ""
  /-- The file kinds the rule runs on. -/
  kinds : List String := ["ts", "tsx"]
  defaultSeverity : String := "error"
  /-- Whether the rule reads the source text directly. -/
  needsRawText : Bool := false
deriving DecidableEq, Repr

/-- Why a visit failed. -/
inductive RuleFailure where
  /-- The rule formed a range from offsets in the wrong order. -/
  | range (e : RangeError)
  /-- The rule asked a tree without a root for its nodes. -/
  | rootless
  /-- The rule was given an option of a shape that it cannot use. -/
  | option
  /-- The rule was given an option with a whole number that is too long to be shown. -/
  | longNumber
  /-- The rule gave up. -/
  | raised
deriving DecidableEq, Repr

/-- Results up to the end or the first failure. -/
structure Run (α : Type) where
  results : List α := []
  failure : Option RuleFailure := none
deriving Repr

namespace Run

/-- Work through a list, each item giving some results or failing. -/
def each {α β : Type} (f : α → Except RuleFailure (List β)) : List α → Run β
  | [] => {}
  | x :: xs =>
    match f x with
    | .error e => { failure := some e }
    | .ok ys =>
      let rest := each f xs
      { rest with results := ys ++ rest.results }

/-- Change the list of results. -/
def mapResults {α β : Type} (f : List α → List β) (r : Run α) : Run β :=
  ⟨f r.results, r.failure⟩

@[simp] theorem each_nil {α β : Type} (f : α → Except RuleFailure (List β)) :
    each f [] = {} := rfl

/-- Without failures, the results are those of the items one after the other. -/
theorem each_eq_flatMap {α β : Type} {f : α → Except RuleFailure (List β)} {g : α → List β}
    {xs : List α} (h : ∀ x ∈ xs, f x = .ok (g x)) : each f xs = ⟨xs.flatMap g, none⟩ := by
  induction xs with
  | nil => rfl
  | cons x xs ih =>
    have hx := h x List.mem_cons_self
    have hr := ih fun y hy => h y (List.mem_cons_of_mem _ hy)
    simp [each, hx, hr]

end Run

/-- One text with its tree and the tables of that same text. -/
structure Source where
  /-- The name of the file kind. -/
  kind : String
  text : Text
  /-- The parser's tree, if there is one. -/
  tree : Option SyntaxTree
  index : PositionIndex := PositionIndex.ofText text
  index_eq : index = PositionIndex.ofText text := by rfl

namespace Source

/-- The offsets of a node. -/
def span (s : Source) (n : Node) : Except RuleFailure OffsetRange :=
  match OffsetRange.of (s.index.offsetOfByte n.label.startByte)
      (s.index.offsetOfByte n.label.endByte) with
  | .ok r => .ok r
  | .error e => .error (.range e)

/-- The text of a node. -/
def textOf (s : Source) (n : Node) : Except RuleFailure Text :=
  (s.span n).map (·.slice s.text)

/-- Whether a node reads exactly as a word. -/
def reads (s : Source) (n : Node) (word : String) : Except RuleFailure Bool :=
  (s.textOf n).map fun t => t == word.toList

/-- Work through what `list` takes from the root. Without a tree there is nothing to do. -/
def each {α β : Type} (s : Source) (list : Node → List α)
    (f : α → Except RuleFailure (List β)) : Run β :=
  match s.tree with
  | none => {}
  | some .rootless => { failure := some .rootless }
  | some (.rooted root) => Run.each f (list root)

/-- Work through all nodes in source order. -/
def eachNode {β : Type} (s : Source) (f : Node → Except RuleFailure (List β)) : Run β :=
  s.each Node.walk f

end Source

/-- The options of a rule: a mapping from names. -/
abbrev Options := Entries

/-- An option, or what is taken when it is not given. -/
def Options.get (o : Options) (name : String) (default : Value) : Value :=
  (Entries.get? (.str name) o).getD default

/-- A rule. -/
structure Rule where
  info : RuleInfo
  visit : Source → Options → Run Yield

/-- The id of a rule. -/
def Rule.id (r : Rule) : String := r.info.id

/-- A diagnostic of a rule over a range. -/
def RuleInfo.diagnostic (i : RuleInfo) (range : OffsetRange) (message : String) : Output :=
  .diagnostic ⟨range, message, i.id, i.defaultSeverity⟩

/-- A rule that yields nothing but outputs. -/
def Rule.ofOutputs (i : RuleInfo) (visit : Source → Options → Run Output) : Rule :=
  ⟨i, fun s o => (visit s o).mapResults (List.map Yield.output)⟩

end TreeLint
