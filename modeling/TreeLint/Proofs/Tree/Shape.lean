import TreeLint.Tree.Node

/-!
# The shape of a parser's tree

What a parser promises about the spans of its nodes: children lie inside their parent, and
siblings follow one another (`Node.Nested`). From this it follows, for trees of any depth,

* that everything below a node lies inside it (`Nested.within_walk`);
* that the spans of nodes picked in different places of the tree do not overlap
  (`Nested.pairwise_picked`), as long as each node picks one of its children and nothing is
  picked inside of what was picked.

The agenda of a walk is replaced by recursion on the tree (`Node.preorder`), and proofs go by
`Node.induction`, with one hypothesis for each child. A tree whose spans are moved
(`Node.mapBytes`) is walked in the same order (`walk_mapBytes`).
-/

namespace TreeLint

namespace Node

/-- A property holds of every node if it passes from the children of a node to the node. -/
theorem induction {P : Node → Prop} (node : ∀ l cs, (∀ c ∈ cs, P c) → P (.mk l cs)) :
    ∀ n : Node, P n
  | .mk l cs => node l cs fun c _ => induction node c
termination_by n => sizeOf n
decreasing_by
  have := List.sizeOf_lt_of_mem ‹c ∈ cs›
  simp only [Node.mk.sizeOf_spec]
  omega

/-! ### What a walk lists -/

theorem preorders_eq_flatMap (cs : List Node) : preorders cs = cs.flatMap preorder := by
  induction cs with
  | nil => rfl
  | cons c cs ih => rw [preorders, ih, List.flatMap_cons]

theorem walk_mk (l : Label) (cs : List Node) :
    (mk l cs).walk = mk l cs :: cs.flatMap walk := by
  have hwalk : walk = preorder := funext walk_eq_preorder
  rw [hwalk, preorder, preorders_eq_flatMap]

theorem walk_eq_cons (n : Node) : n.walk = n :: n.children.flatMap walk := by
  cases n with
  | mk l cs => exact walk_mk l cs

/-- What is below a node are the walks of its children. -/
theorem descendants_eq_flatMap (n : Node) : n.descendants [] = n.children.flatMap walk := by
  have hwalk : walk = preorder := funext walk_eq_preorder
  rw [descendants, visit_eq_preorders, preorders_eq_flatMap, hwalk]

theorem walk_eq_cons_descendants (n : Node) : n.walk = n :: n.descendants [] := by
  rw [walk_eq_cons, descendants_eq_flatMap]

theorem mem_walk_self (n : Node) : n ∈ n.walk := by
  cases n with
  | mk l cs =>
    rw [walk_mk]
    exact List.mem_cons_self

theorem mem_walk_of_mem_descendants {n m : Node} (h : m ∈ n.descendants []) : m ∈ n.walk := by
  rw [walk_eq_cons_descendants]
  exact List.mem_cons_of_mem n h

theorem mem_walk_of_mem_child {n c m : Node} (hc : c ∈ n.children) (hm : m ∈ c.walk) :
    m ∈ n.walk := by
  cases n with
  | mk l cs =>
    rw [walk_mk]
    exact List.mem_cons_of_mem _ (List.mem_flatMap.2 ⟨c, hc, hm⟩)

/-- A walk lists the children of what it lists. -/
theorem mem_walk_of_child {n m c : Node} (hm : m ∈ n.walk) (hc : c ∈ m.children) :
    c ∈ n.walk := by
  induction n using Node.induction with
  | node l cs ih =>
    rw [walk_mk, List.mem_cons] at hm
    rcases hm with rfl | hm
    · exact mem_walk_of_mem_child hc (mem_walk_self c)
    · obtain ⟨a, ha, hma⟩ := List.mem_flatMap.1 hm
      exact mem_walk_of_mem_child (n := mk l cs) ha (ih a ha hma)

/-- A walk lists what is listed by the walks of what it lists. -/
theorem mem_walk_trans {n m d : Node} (hm : m ∈ n.walk) (hd : d ∈ m.walk) : d ∈ n.walk := by
  induction n using Node.induction with
  | node l cs ih =>
    rw [walk_mk, List.mem_cons] at hm
    rcases hm with rfl | hm
    · exact hd
    · obtain ⟨a, ha, hma⟩ := List.mem_flatMap.1 hm
      exact mem_walk_of_mem_child (n := mk l cs) ha (ih a ha hma)

/-- With their parents left out, the nodes are listed as they are without. -/
theorem map_snd_visitWithParent (agenda : List (Option Node × Node)) :
    (visitWithParent agenda).map Prod.snd = visit [] (agenda.map Prod.snd) := by
  induction agenda using visitWithParent.induct with
  | case1 => simp [visitWithParent, visit]
  | case2 p n agenda ih =>
    rw [visitWithParent, List.map_cons, ih, List.map_cons, visit, List.map_append, List.map_map]
    simp [isAny, Function.comp_def]

theorem map_snd_walkWithParent (n : Node) : n.walkWithParent.map Prod.snd = n.walk :=
  map_snd_visitWithParent [(none, n)]

/-! ### Trees with moved spans -/

section Moved

mutual
/-- A tree with every start and every end moved by the same function. -/
def mapBytes (f : Int → Int) : Node → Node
  | .mk l cs =>
    .mk { l with startByte := f l.startByte, endByte := f l.endByte } (mapBytesAll f cs)
/-- Several trees, each with its bytes moved. -/
def mapBytesAll (f : Int → Int) : List Node → List Node
  | [] => []
  | c :: cs => c.mapBytes f :: mapBytesAll f cs
end

variable (f : Int → Int)

theorem mapBytesAll_eq_map (cs : List Node) : mapBytesAll f cs = cs.map (mapBytes f) := by
  induction cs with
  | nil => rfl
  | cons c cs ih => rw [mapBytesAll, ih, List.map_cons]

theorem mapBytes_mk (l : Label) (cs : List Node) :
    (mk l cs).mapBytes f =
      mk { l with startByte := f l.startByte, endByte := f l.endByte } (cs.map (mapBytes f)) := by
  rw [mapBytes, mapBytesAll_eq_map]

@[simp] theorem label_mapBytes (n : Node) :
    (n.mapBytes f).label =
      { n.label with startByte := f n.label.startByte, endByte := f n.label.endByte } := by
  cases n with
  | mk l cs => rw [mapBytes_mk, label_mk, label_mk]

@[simp] theorem children_mapBytes (n : Node) :
    (n.mapBytes f).children = n.children.map (mapBytes f) := by
  cases n with
  | mk l cs => rw [mapBytes_mk, children_mk, children_mk]

@[simp] theorem kind_mapBytes (n : Node) : (n.mapBytes f).kind = n.kind := by
  rw [kind, kind, label_mapBytes]

theorem child?_mapBytes (n : Node) (field : String) :
    (n.mapBytes f).child? field = (n.child? field).map (mapBytes f) := by
  rw [child?, child?, children_mapBytes, List.find?_map]
  simp only [Function.comp_def, label_mapBytes]

/-- Moving spans keeps the order of a walk. -/
theorem walk_mapBytes (n : Node) : (n.mapBytes f).walk = n.walk.map (mapBytes f) := by
  induction n using Node.induction with
  | node l cs ih =>
    rw [mapBytes_mk, walk_mk, walk_mk, List.map_cons, mapBytes_mk, List.flatMap_map,
      List.map_flatMap]
    rw [List.flatMap_def, List.flatMap_def, List.map_congr_left ih]

theorem mapBytes_eq_self {f : Int → Int} (hf : ∀ b, f b = b) (n : Node) : n.mapBytes f = n := by
  induction n using Node.induction with
  | node l cs ih =>
    have hcs : cs.map (mapBytes f) = cs := by
      rw [List.map_congr_left ih, List.map_id']
    rw [mapBytes_mk, hf, hf, hcs]

end Moved

/-! ### Nested spans -/

/-- Children lie inside their parent, and each ends before the next one starts. -/
structure Nested (root : Node) : Prop where
  within : ∀ n ∈ root.walk, ∀ c ∈ n.children,
    n.label.startByte ≤ c.label.startByte ∧ c.label.endByte ≤ n.label.endByte
  ordered : ∀ n ∈ root.walk,
    n.children.Pairwise fun a b => a.label.endByte ≤ b.label.startByte

/-- A listing by recursion on the tree can be evaluated. -/
instance (n : Node) : Decidable n.Nested :=
  decidable_of_iff
    ((∀ m ∈ n.preorder, ∀ c ∈ m.children,
        m.label.startByte ≤ c.label.startByte ∧ c.label.endByte ≤ m.label.endByte) ∧
      ∀ m ∈ n.preorder, m.children.Pairwise fun a b => a.label.endByte ≤ b.label.startByte) (by
    rw [← walk_eq_preorder]
    exact ⟨fun h => ⟨h.1, h.2⟩, fun h => ⟨h.within, h.ordered⟩⟩)

/-- Two spans of which one ends where the other starts, or before. -/
def Disjoint (a b : Node) : Prop :=
  a.label.endByte ≤ b.label.startByte ∨ b.label.endByte ≤ a.label.startByte

namespace Nested

theorem child {n c : Node} (h : n.Nested) (hc : c ∈ n.children) : c.Nested where
  within m hm := h.within m (mem_walk_of_mem_child hc hm)
  ordered m hm := h.ordered m (mem_walk_of_mem_child hc hm)

theorem of_mem_walk {n m : Node} (h : n.Nested) (hm : m ∈ n.walk) : m.Nested where
  within k hk := h.within k (mem_walk_trans hm hk)
  ordered k hk := h.ordered k (mem_walk_trans hm hk)

/-- Everything below a node lies inside it. -/
theorem within_walk {n : Node} (h : n.Nested) : ∀ d ∈ n.walk,
    n.label.startByte ≤ d.label.startByte ∧ d.label.endByte ≤ n.label.endByte := by
  induction n using Node.induction with
  | node l cs ih =>
    intro d hd
    rw [walk_mk, List.mem_cons] at hd
    rcases hd with rfl | hd
    · exact ⟨Int.le_refl _, Int.le_refl _⟩
    · obtain ⟨a, ha, hda⟩ := List.mem_flatMap.1 hd
      have hin := h.within _ (mem_walk_self _) a ha
      have hbelow := ih a ha (h.child ha) d hda
      exact ⟨Int.le_trans hin.1 hbelow.1, Int.le_trans hbelow.2 hin.2⟩

variable {pick : Node → Option Node}

/-- What is picked in a tree belongs to the tree. -/
theorem mem_walk_of_picked (hchild : ∀ n c, pick n = some c → c ∈ n.children) {n x : Node}
    (hx : x ∈ n.walk.filterMap pick) : x ∈ n.walk := by
  obtain ⟨m, hm, hpick⟩ := List.mem_filterMap.1 hx
  exact mem_walk_of_child hm (hchild m x hpick)

/-- What is picked in different siblings does not overlap. -/
theorem pairwise_picked_siblings (hchild : ∀ n c, pick n = some c → c ∈ n.children)
    {n : Node} (h : n.Nested) :
    n.children.Pairwise fun a b =>
      ∀ x ∈ a.walk.filterMap pick, ∀ y ∈ b.walk.filterMap pick,
        x.label.endByte ≤ y.label.startByte := by
  refine (h.ordered n (mem_walk_self n)).imp_of_mem ?_
  intro a b ha hb hab x hx y hy
  have hxa := (h.child ha).within_walk x (mem_walk_of_picked hchild hx)
  have hyb := (h.child hb).within_walk y (mem_walk_of_picked hchild hy)
  omega

/-- What is picked by a node does not overlap with what is picked below it. -/
theorem disjoint_picked (hchild : ∀ n c, pick n = some c → c ∈ n.children) {n c : Node}
    (h : n.Nested) (hc : pick n = some c) (hempty : c.walk.filterMap pick = []) :
    ∀ x ∈ n.children.flatMap (fun a => a.walk.filterMap pick), Disjoint c x := by
  intro x hx
  obtain ⟨a, ha, hxa⟩ := List.mem_flatMap.1 hx
  have hin := (h.child ha).within_walk x (mem_walk_of_picked hchild hxa)
  have hord := h.ordered n (mem_walk_self n)
  -- the picked child stands somewhere among the children; `x` is found before or behind it
  obtain ⟨front, back, hcs⟩ := List.append_of_mem (hchild n c hc)
  rw [hcs] at hord ha
  obtain ⟨_, hback, hcross⟩ := List.pairwise_append.1 hord
  rw [List.mem_append, List.mem_cons] at ha
  rcases ha with hf | rfl | hb
  · have := hcross a hf c List.mem_cons_self
    exact Or.inr (Int.le_trans hin.2 this)
  · rw [hempty] at hxa
    cases hxa
  · have := List.rel_of_pairwise_cons hback hb
    exact Or.inl (Int.le_trans this hin.1)

/-- **Picked nodes do not overlap.** Each node of a nested tree may pick one of its children. If
nothing is picked inside of what was picked, then all that is picked is pairwise disjoint. -/
theorem pairwise_picked (hchild : ∀ n c, pick n = some c → c ∈ n.children) {root : Node}
    (h : root.Nested)
    (hinside : ∀ n ∈ root.walk, ∀ c, pick n = some c → ∀ d ∈ c.walk, pick d = none) :
    (root.walk.filterMap pick).Pairwise Disjoint := by
  induction root using Node.induction with
  | node l cs ih =>
    have hbelow : (cs.flatMap fun a => a.walk.filterMap pick).Pairwise Disjoint := by
      rw [List.pairwise_flatMap]
      constructor
      · intro a ha
        apply ih a ha (h.child ha)
        intro n hn
        exact hinside n (mem_walk_of_mem_child (n := Node.mk l cs) ha hn)
      · refine (pairwise_picked_siblings hchild h).imp ?_
        intro a b hab x hx y hy
        exact Or.inl (hab x hx y hy)
    rw [walk_mk, List.filterMap_cons, List.filterMap_flatMap]
    cases hc : pick (Node.mk l cs) with
    | none => exact hbelow
    | some c =>
      refine List.pairwise_cons.2 ⟨?_, hbelow⟩
      apply disjoint_picked hchild h hc
      rw [List.filterMap_eq_nil_iff]
      exact hinside _ (mem_walk_self _) c hc

end Nested

end Node

end TreeLint
