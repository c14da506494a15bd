import TreeLint.Proofs.Rule.Lockstep

/-!
# Rules inside a longer text

A source may be put into a longer one: text in front of it and behind it, and the bytes of every
node moved by the bytes in front (`Source.embed`). Offsets then move by the characters in front,
which are fewer than the bytes if some are not ASCII; and a text with ASCII characters only may
become one that needs a table of bytes, or stay one.

As long as all nodes lie in the text, the two sources correspond (`simulation_embed`), so the
built-in rules yield the same outputs and fail alike, with all offsets moved
(`visit_embed`). Nodes may start or end inside a character.
-/

namespace TreeLint

open Text

/-- Both ends of every node lie in a text of `m` bytes. -/
def Node.Within (m : Nat) (root : Node) : Prop :=
  ∀ n ∈ root.walk, (0 ≤ n.label.startByte ∧ n.label.startByte ≤ m) ∧
    0 ≤ n.label.endByte ∧ n.label.endByte ≤ m

theorem Node.Within.child {m : Nat} {n c : Node} (h : n.Within m) (hc : c ∈ n.children) :
    c.Within m := by
  intro d hd
  exact h d (Node.mem_walk_of_mem_child hc hd)

/-- A tree with every start and every end moved by the same function. -/
def SyntaxTree.mapBytes (f : Int → Int) : SyntaxTree → SyntaxTree
  | .rootless => .rootless
  | .rooted root => .rooted (root.mapBytes f)

namespace Source

/-- Both ends of every node lie in the text. -/
def Within (s : Source) : Prop :=
  ∀ root, s.tree = some (.rooted root) → root.Within (byteLength s.text)

/-- A source with text in front of it and behind it, and its tree moved along. -/
def embed (front back : Text) (s : Source) : Source where
  kind := s.kind
  text := front ++ s.text ++ back
  tree := s.tree.map (SyntaxTree.mapBytes (· + byteLength front))

end Source

/-- A node of a text of `m` bytes, and the same node moved by `b` bytes. -/
structure Embedded (b m : Nat) (n n' : Node) : Prop where
  within : n.Within m
  eq_mapBytes : n' = n.mapBytes (· + b)

namespace Embedded

variable {b m : Nat} {n n' : Node}

theorem startByte (h : Embedded b m n n') : n'.label.startByte = n.label.startByte + b := by
  rw [h.eq_mapBytes, Node.label_mapBytes]

theorem endByte (h : Embedded b m n n') : n'.label.endByte = n.label.endByte + b := by
  rw [h.eq_mapBytes, Node.label_mapBytes]

theorem forall₂_children (h : Embedded b m n n') :
    List.Forall₂ (Embedded b m) n.children n'.children := by
  rw [h.eq_mapBytes, Node.children_mapBytes, List.forall₂_map_right_iff, List.forall₂_same]
  intro c hc
  exact ⟨h.within.child hc, rfl⟩

theorem correspondence (b m : Nat) : Correspondence (Embedded b m) where
  kind h := by rw [h.eq_mapBytes, Node.kind_mapBytes]
  named h := by rw [h.eq_mapBytes, Node.label_mapBytes]
  field h := by rw [h.eq_mapBytes, Node.label_mapBytes]
  children h := .of_forall₂ h.forall₂_children
  keyword h _ _ := rel_head?_of_forall₂ h.forall₂_children

end Embedded

/-- A source corresponds to the longer one it was put into. -/
theorem simulation_embed {s : Source} (h : s.Within) (front back : Text) :
    Simulation front.length s (s.embed front back)
      (Embedded (byteLength front) (byteLength s.text)) where
  toCorrespondence := Embedded.correspondence _ _
  tree := by
    rw [Source.embed]
    cases ht : s.tree with
    | none => exact .none
    | some t =>
      cases t with
      | rootless => exact .some .rootless
      | rooted root => exact .some (.rooted ⟨h root ht, rfl⟩)
  start {n n'} hn := by
    obtain ⟨⟨hpos, hle⟩, -⟩ := hn.within n (Node.mem_walk_self n)
    rw [hn.startByte, s.index_eq]
    exact PositionIndex.offsetOfByte_append front s.text back hpos hle
  stop {n n'} hn := by
    obtain ⟨-, hpos, hle⟩ := hn.within n (Node.mem_walk_self n)
    rw [hn.endByte, s.index_eq]
    exact PositionIndex.offsetOfByte_append front s.text back hpos hle
  width hn := by
    rw [hn.startByte, hn.endByte]
    omega
  bytes {n n' p p'} hn hp := by
    rw [Node.bytes, Node.bytes, Node.bytes, Node.bytes, hn.startByte, hn.endByte, hp.startByte,
      hp.endByte, Prod.mk.injEq, Prod.mk.injEq]
    omega
  slice r hr := slice_append_append front s.text back r.start hr

/-- **Rules do not depend on what stands around.** If a source is put into a longer text, every
built-in rule yields the same sequence of outputs under every set of options, with the same
failure if it fails, and all offsets are greater by the number of characters put in front. -/
theorem visit_embed {s : Source} (h : s.Within) (front back : Text) :
    ∀ rule ∈ builtInRules, ∀ o : Options,
      rule.visit (s.embed front back) o = (rule.visit s o).moved front.length :=
  (simulation_embed h front back).visit_builtIn

/-- An import from the folder above, all in ASCII. -/
def parentImport : Source where
  kind := "ts"
  text := "import \"../a\";".toList
  tree := some (.rooted
    (.mk { kind := "program", named := true, startByte := 0, endByte := 14 }
      [.mk { kind := "import_statement", named := true, startByte := 0, endByte := 14 }
        [.mk { kind := "string", named := true, startByte := 7, endByte := 13,
               field := some "source" } []]]))

/-- Between comments with characters of two bytes, the import is edited six characters, and not
seven bytes, further on. -/
theorem parentImport_embedded :
    FolderImport.rule.visit parentImport [] =
      ⟨[.output (.edit ⟨8, 12, "./../a".toList, "imports.folder_path"⟩)], none⟩ ∧
    FolderImport.rule.visit (parentImport.embed "// é.\n".toList "// ü".toList) [] =
      ⟨[.output (.edit ⟨14, 18, "./../a".toList, "imports.folder_path"⟩)], none⟩ := by
  have hwithin : parentImport.Within := by
    intro root hroot
    cases hroot
    unfold Node.Within
    rw [Node.walk_eq_preorder]
    decide
  have hvisit : FolderImport.rule.visit parentImport [] =
      ⟨[.output (.edit ⟨8, 12, "./../a".toList, "imports.folder_path"⟩)], none⟩ := by
    show Run.mapResults _ (Run.each (FolderImport.check _ _) (Node.walk _)) = _
    rw [Node.walk_eq_preorder]
    rfl
  refine ⟨hvisit, ?_⟩
  rw [visit_embed hwithin _ _ FolderImport.rule (by simp [builtInRules]), hvisit]
  rfl

end TreeLint
