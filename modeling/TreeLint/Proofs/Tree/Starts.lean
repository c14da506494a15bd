import Mathlib.Data.Int.Order.Basic
import TreeLint.Proofs.Tree.Shape

/-!
# In which order nodes start

A walk of a nested tree comes to the nodes in the order in which they start
(`Nested.pairwise_start_walk`). Where each node may pick a node of its own tree, what is picked need
not start in the order of the walk: a node comes before everything below it, but what it picks may
stand behind what is picked below it. There is no other way to get out of order
(`Nested.pairwise_start_iff`). Starts may be counted in anything that bytes can be turned into in
their order.
-/

namespace TreeLint

namespace Node

namespace Nested

variable {α : Type*} [Preorder α] {f : Int → α} {pick : Node → Option Node} {n : Node}

/-- What is picked in one sibling starts before what is picked in the next ones. -/
theorem pairwise_start_siblings (hf : ∀ i j, i ≤ j → f i ≤ f j)
    (hin : ∀ n c, pick n = some c → c ∈ n.walk) (h : n.Nested)
    (hspan : ∀ m ∈ n.walk, ∀ c, pick m = some c → f c.label.startByte ≤ f c.label.endByte) :
    n.children.Pairwise fun a b => ∀ x ∈ a.walk.filterMap pick, ∀ y ∈ b.walk.filterMap pick,
      f x.label.startByte ≤ f y.label.startByte := by
  refine (h.ordered n (mem_walk_self n)).imp_of_mem ?_
  intro a b ha hb hab x hx y hy
  obtain ⟨m, hm, hx⟩ := List.mem_filterMap.1 hx
  obtain ⟨k, hk, hy⟩ := List.mem_filterMap.1 hy
  have hend := ((h.child ha).within_walk x (mem_walk_trans hm (hin m x hx))).2
  have hstart := ((h.child hb).within_walk y (mem_walk_trans hk (hin k y hy))).1
  calc f x.label.startByte
      ≤ f x.label.endByte := hspan m (mem_walk_of_mem_child ha hm) x hx
    _ ≤ f y.label.startByte := hf _ _ (by omega)

/-- **When picked nodes start one after the other.** Siblings never disturb the order. It breaks
just where a node picks something that starts after what is picked below the node. -/
theorem pairwise_start_iff (hf : ∀ i j, i ≤ j → f i ≤ f j)
    (hin : ∀ n c, pick n = some c → c ∈ n.walk) (h : n.Nested)
    (hspan : ∀ m ∈ n.walk, ∀ c, pick m = some c → f c.label.startByte ≤ f c.label.endByte) :
    (n.walk.filterMap pick).Pairwise (fun a b => f a.label.startByte ≤ f b.label.startByte) ↔
      ∀ m ∈ n.walk, ∀ c, pick m = some c → ∀ k ∈ m.descendants [], ∀ d, pick k = some d →
        f c.label.startByte ≤ f d.label.startByte := by
  induction n using Node.induction with
  | node l cs ih =>
    have hsiblings : cs.Pairwise _ := h.pairwise_start_siblings hf hin hspan
    have hchildren : ∀ a ∈ cs, _ := fun a ha =>
      ih a ha (h.child ha) fun m hm => hspan m (mem_walk_of_mem_child (n := Node.mk l cs) ha hm)
    have hbelow : (cs.flatMap fun a => a.walk.filterMap pick).Pairwise
        (fun a b => f a.label.startByte ≤ f b.label.startByte) ↔
        ∀ m ∈ cs.flatMap walk, ∀ c, pick m = some c → ∀ k ∈ m.descendants [], ∀ d,
          pick k = some d → f c.label.startByte ≤ f d.label.startByte := by
      rw [List.pairwise_flatMap, and_iff_left hsiblings, List.forall_mem_flatMap]
      exact forall₂_congr hchildren
    have hroot : (Node.mk l cs).descendants [] = cs.flatMap walk := descendants_eq_flatMap _
    rw [walk_mk, List.forall_mem_cons, ← hbelow, hroot, List.filterMap_cons,
      List.filterMap_flatMap]
    cases hc : pick (Node.mk l cs) with
    | none => simp
    | some c =>
      rw [List.pairwise_cons]
      refine and_congr_left' ?_
      rw [← List.filterMap_flatMap]
      constructor
      · rintro hfirst _ ⟨⟩ k hk d hd
        exact hfirst d (List.mem_filterMap.2 ⟨k, hk, hd⟩)
      · intro hfirst d hd
        obtain ⟨k, hk, hd⟩ := List.mem_filterMap.1 hd
        exact hfirst c rfl k hk d hd

/-- A walk comes to the nodes in the order in which they start. -/
theorem pairwise_start_walk (h : n.Nested)
    (hspan : ∀ m ∈ n.walk, m.label.startByte ≤ m.label.endByte) :
    n.walk.Pairwise fun a b => a.label.startByte ≤ b.label.startByte := by
  have hself : ∀ m c : Node, some m = some c → c ∈ m.walk := by
    rintro m _ ⟨⟩
    exact mem_walk_self m
  have hall : n.walk.filterMap some = n.walk := List.filterMap_some
  rw [← hall]
  refine (h.pairwise_start_iff (f := id) (fun _ _ h => h) hself ?_).2 ?_
  · rintro m hm _ ⟨⟩
    exact hspan m hm
  · rintro m hm _ ⟨⟩ k hk _ ⟨⟩
    exact ((h.of_mem_walk hm).within_walk k (mem_walk_of_mem_descendants hk)).1

end Nested

end Node

end TreeLint
