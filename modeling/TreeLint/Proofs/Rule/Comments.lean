import TreeLint.Proofs.Rule.Lockstep

/-!
# Rules read over comments

A parser hangs comments into a tree wherever they stand in the text: before a first argument,
behind a last statement, between the parts of a declaration. `Node.Commented` relates a tree to
the same tree with comments put in, as many as one likes and at any depth. What was there before
stays as it was, spans included. Only one place is left out: a comment before the first child of a
switch statement takes the place of its keyword.

Such trees correspond (`Node.Commented.correspondence`), and nodes that correspond stand for the
same text, so the built-in rules take the same steps on both and nothing moves
(`visit_commented`).
-/

namespace TreeLint

/-- Labels that say the same. Nodes put in before change the number of a node in the listing. -/
def Label.SameAs (l l' : Label) : Prop := l' = { l with row := l'.row }

/-- The second tree is the first with comments put in. -/
inductive Node.Commented : Node → Node → Prop where
  /-- Comments may stand before, between and behind the children of a node, but a switch statement
  that has children is left to the other case. -/
  | anywhere {l l' : Label} {cs cs' : List Node} (label : l.SameAs l')
    (children : Padded Node.Commented Node.IsAside cs cs')
    (free : l.kind = "switch_statement" → cs = []) : Node.Commented (.mk l cs) (.mk l' cs')
  /-- Or the first child keeps its place, and comments stand between the others and behind. -/
  | behind {l l' : Label} {c c' : Node} {cs cs' : List Node} (label : l.SameAs l')
    (first : Node.Commented c c') (rest : Padded Node.Commented Node.IsAside cs cs') :
    Node.Commented (.mk l (c :: cs)) (.mk l' (c' :: cs'))

namespace Node.Commented

variable {n n' : Node}

theorem label (h : n.Commented n') : n.label.SameAs n'.label := by
  cases h with
  | anywhere label _ _ => exact label
  | behind label _ _ => exact label

theorem bytes_eq (h : n.Commented n') : n'.bytes = n.bytes := by
  rw [bytes, bytes, h.label]

/-- A tree may be left without further comments. -/
theorem refl (n : Node) : n.Commented n := by
  induction n using Node.induction with
  | node l cs ih =>
    cases cs with
    | nil => exact .anywhere rfl .nil fun _ => rfl
    | cons c cs =>
      have hrest : List.Forall₂ Commented cs cs :=
        List.forall₂_same.2 fun d hd => ih d (List.mem_cons_of_mem c hd)
      exact .behind rfl (ih c List.mem_cons_self) (.of_forall₂ hrest)

theorem correspondence : Correspondence Commented where
  kind h := by rw [kind, kind, h.label]
  named h := by rw [h.label]
  field h := by rw [h.label]
  children h := by
    cases h with
    | anywhere _ children _ => exact children
    | behind _ first rest => exact .step first rest
  keyword h hswitch hne := by
    cases h with
    | anywhere _ _ free => exact absurd (free hswitch) hne
    | behind _ first _ => exact .some first

end Node.Commented

/-- The second source is the first with comments put into its tree. -/
structure Source.Commented (s s' : Source) : Prop where
  text_eq : s'.text = s.text
  tree : Option.Rel (SyntaxTree.Rel Node.Commented) s.tree s'.tree

theorem Source.Commented.index_eq {s s' : Source} (h : s.Commented s') : s'.index = s.index := by
  rw [s'.index_eq, h.text_eq, s.index_eq]

/-- A source corresponds to itself with comments put in, at the same place in the text. -/
theorem simulation_commented {s s' : Source} (h : s.Commented s') :
    Simulation 0 s s' Node.Commented where
  toCorrespondence := Node.Commented.correspondence
  tree := h.tree
  start hn := by
    rw [h.index_eq, hn.label]
    rfl
  stop hn := by
    rw [h.index_eq, hn.label]
    rfl
  width hn := by rw [hn.label]
  bytes hn hm := by rw [hn.bytes_eq, hm.bytes_eq]
  slice r _ := by
    rw [h.text_eq]
    rfl

/-! ### What does not move -/

theorem Yield.moved_zero (y : Yield) : y.moved 0 = y := by
  cases y with
  | stray v => rfl
  | output out =>
    cases out with
    | diagnostic d => rfl
    | highlight r => rfl
    | edit e => simp [Yield.moved, Output.moved]

theorem RuleFailure.moved_zero (e : RuleFailure) : e.moved 0 = e := by
  cases e with
  | range e => simp [RuleFailure.moved, RangeError.moved]
  | rootless => rfl
  | option => rfl
  | longNumber => rfl
  | raised => rfl

theorem Run.moved_zero (r : Run Yield) : r.moved 0 = r := by
  rw [Run.moved, funext Yield.moved_zero, funext RuleFailure.moved_zero, List.map_id',
    Option.map_id']

/-- **Comments never change a verdict.** If comments are put into a tree, every built-in rule
yields the same sequence of outputs under every set of options, and fails if and only if it failed
before, for the same reason. -/
theorem visit_commented {s s' : Source} (h : s.Commented s') :
    ∀ rule ∈ builtInRules, ∀ o : Options, rule.visit s' o = rule.visit s o := by
  intro rule hrule o
  rw [(simulation_commented h).visit_builtIn rule hrule o, Run.moved_zero]

/-- A call of `map` whose callback returns an element in parentheses, with the arguments and the
content of the parentheses left open. -/
def mapCall (arguments inner : List Node) : Source where
  kind := "tsx"
  text := "a.map(/**/x=>(/**/<b/>))".toList
  tree := some (.rooted
    (.mk { kind := "call_expression", named := true, startByte := 0, endByte := 24 }
      [.mk { kind := "member_expression", named := true, startByte := 0, endByte := 5,
             field := some "function" }
        [.mk { kind := "property_identifier", named := true, startByte := 2, endByte := 5,
               field := some "property" } []],
        .mk { kind := "arguments", named := true, startByte := 5, endByte := 24,
              field := some "arguments" }
          (arguments ++
            [.mk { kind := "arrow_function", named := true, startByte := 10, endByte := 23 }
              [.mk { kind := "parenthesized_expression", named := true, startByte := 13,
                     endByte := 23, field := some "body" }
                (inner ++
                  [.mk { kind := "jsx_self_closing_element", named := true, startByte := 18,
                         endByte := 22 }
                    [.mk { kind := "identifier", named := true, startByte := 19, endByte := 20,
                           field := some "name" } []]])]])]))

/-- A comment of four characters. -/
def shortComment (start : Int) : Node :=
  .mk { kind := "comment", named := true, startByte := start, endByte := start + 4 } []

theorem shortComment_isAside (start : Int) : (shortComment start).IsAside := ⟨rfl, rfl, rfl⟩

/-- Neither the comment before the callback nor the one before the element hides that the element
has no key. -/
theorem mapCall_commented :
    (mapCall [] []).Commented (mapCall [shortComment 6] [shortComment 14]) ∧
    ListKey.rule.visit (mapCall [] []) [] =
      ⟨[.output (.highlight ⟨⟨2, 5, by decide⟩, "react.map_key"⟩)], none⟩ ∧
    ListKey.rule.visit (mapCall [shortComment 6] [shortComment 14]) [] =
      ⟨[.output (.highlight ⟨⟨2, 5, by decide⟩, "react.map_key"⟩)], none⟩ := by
  have hcommented :
      (mapCall [] []).Commented (mapCall [shortComment 6] [shortComment 14]) := by
    refine ⟨rfl, .some (.rooted (.behind rfl (.refl _) (.step ?_ .nil)))⟩
    refine .anywhere rfl (.pad (shortComment_isAside 6) (.step ?_ .nil)) nofun
    refine .behind rfl ?_ .nil
    exact .anywhere rfl (.pad (shortComment_isAside 14) (.step (.refl _) .nil)) nofun
  have hvisit : ListKey.rule.visit (mapCall [] []) [] =
      ⟨[.output (.highlight ⟨⟨2, 5, by decide⟩, "react.map_key"⟩)], none⟩ := by
    show Run.mapResults _ (Run.each (ListKey.check _ _) (Node.walk _)) = _
    rw [Node.walk_eq_preorder]
    rfl
  refine ⟨hcommented, hvisit, ?_⟩
  rw [visit_commented hcommented ListKey.rule (by simp [builtInRules]), hvisit]

end TreeLint
