/-!
# Syntax trees

The parser's answer as a rose tree. A node has a kind, three flags that the parser sets, the span
of its bytes, the field under which its parent finds it, and its children in source order.

`Node.walk` lists a node and everything below it; `Node.descendants` lists what is below it and
may be told not to enter nodes of certain kinds. Both work off an agenda of nodes still to visit:
the first one is listed and its children take its place. `Node.preorder` says by recursion on the
tree what a walk lists (`Node.walk_eq_preorder`).
-/

namespace TreeLint

/-- What the parser says about one node. -/
structure Label where
  kind : String
  /-- Whether the node has a name in the grammar, in contrast to punctuation and keywords. -/
  named : Bool := false
  /-- Whether the parser made the node up to recover from an error. -/
  missing : Bool := false
  /-- Whether the parser saw a syntax error in the node. -/
  hasError : Bool := false
  startByte : Int
  endByte : Int
  /-- The field under which the parent finds the node. -/
  field : Option String := none
  /-- The number of the node in the parser's listing. No rule looks at it. -/
  row : Nat := 0
deriving DecidableEq, Repr

/-- A node with everything below it. -/
inductive Node where
  | mk (label : Label) (children : List Node)
deriving Repr

namespace Node

/-- What the parser says about the node. -/
def label : Node → Label
  | .mk l _ => l

/-- The children in source order. -/
def children : Node → List Node
  | .mk _ cs => cs

@[simp] theorem label_mk (l : Label) (cs : List Node) : (mk l cs).label = l := rfl

@[simp] theorem children_mk (l : Label) (cs : List Node) : (mk l cs).children = cs := rfl

/-- The kind of a node. -/
def kind (n : Node) : String := n.label.kind

/-- Whether the kind of a node is one of these. -/
def isAny (n : Node) (kinds : List String) : Bool := kinds.contains n.kind

/-- The first child under a field. -/
def child? (n : Node) (field : String) : Option Node :=
  n.children.find? (fun c => c.label.field == some field)

/-- The children that have a name in the grammar. -/
def namedChildren (n : Node) : List Node := n.children.filter (·.label.named)

mutual
/-- How many nodes a tree has. -/
def size : Node → Nat
  | .mk _ cs => sizes cs + 1
/-- How many nodes several trees have. -/
def sizes : List Node → Nat
  | [] => 0
  | c :: cs => c.size + sizes cs
end

theorem sizes_append (xs ys : List Node) : sizes (xs ++ ys) = sizes xs + sizes ys := by
  induction xs with
  | nil => simp [sizes]
  | cons x xs ih =>
    simp only [List.cons_append, sizes, ih]
    omega

theorem size_eq (n : Node) : n.size = sizes n.children + 1 := by
  cases n
  rfl

/-- Visit the nodes of an agenda: list the first one and put its children in its place, unless
its kind is among those not to enter. -/
def visit (stop : List String) : List Node → List Node
  | [] => []
  | n :: agenda => n :: visit stop ((if n.isAny stop then [] else n.children) ++ agenda)
termination_by agenda => sizes agenda
decreasing_by
  simp only [sizes_append, sizes, size_eq n]
  split
  · simp only [sizes]
    omega
  · omega

/-- A node and everything below it, in source order. -/
def walk (n : Node) : List Node := visit [] [n]

/-- Everything below a node, in source order. Nodes of the kinds `stop` are listed but not
entered; the kind of the node itself does not matter. -/
def descendants (n : Node) (stop : List String) : List Node := visit stop n.children

/-- Visit an agenda with the parent of each node beside it. -/
def visitWithParent : List (Option Node × Node) → List (Option Node × Node)
  | [] => []
  | (p, n) :: agenda =>
    (p, n) :: visitWithParent (n.children.map (fun c => (some n, c)) ++ agenda)
termination_by agenda => sizes (agenda.map Prod.snd)
decreasing_by
  simp [sizes_append, sizes, size_eq n, Function.comp_def]

/-- A node and everything below it, each with its parent. The node itself is taken for a root. -/
def walkWithParent (n : Node) : List (Option Node × Node) := visitWithParent [(none, n)]

mutual
/-- A node, then the trees of its children one after the other. -/
def preorder : Node → List Node
  | .mk l cs => .mk l cs :: preorders cs
/-- The trees of a list one after the other. -/
def preorders : List Node → List Node
  | [] => []
  | c :: cs => c.preorder ++ preorders cs
end

/-- Agendas are visited one node after the other. -/
theorem visit_eq_preorders (agenda : List Node) : visit [] agenda = preorders agenda := by
  have key : ∀ (k : Nat) (agenda : List Node), sizes agenda ≤ k →
      visit [] agenda = preorders agenda := by
    intro k
    induction k with
    | zero =>
      intro agenda h
      cases agenda with
      | nil => simp [visit, preorders]
      | cons n rest =>
        simp only [sizes, size_eq n] at h
        omega
    | succ k ih =>
      intro agenda h
      cases agenda with
      | nil => simp [visit, preorders]
      | cons n rest =>
        have hn : n.isAny [] = false := rfl
        have hs : sizes (n.children ++ rest) ≤ k := by
          simp only [sizes, size_eq n] at h
          rw [sizes_append]
          omega
        have happ : ∀ xs ys, preorders (xs ++ ys) = preorders xs ++ preorders ys := by
          intro xs ys
          induction xs with
          | nil => rfl
          | cons x xs ihx => simp [preorders, ihx]
        rw [visit, hn]
        simp only [Bool.false_eq_true, if_false]
        rw [ih _ hs, happ]
        cases n with
        | mk l cs => simp [preorders, preorder]
  exact key (sizes agenda) agenda (Nat.le_refl _)

/-- The agenda gives the same list as recursion on the tree. -/
theorem walk_eq_preorder (n : Node) : n.walk = n.preorder := by
  simp [walk, visit_eq_preorders, preorders]

end Node

/-- The tree a parser returned, which may lack a root. -/
inductive SyntaxTree where
  | rootless
  | rooted (root : Node)
deriving Repr

end TreeLint
