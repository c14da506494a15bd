import Mathlib.Logic.Function.Iterate
import TreeLint.Proofs.Tree.Starts

/-!
# Walks and searches, node by node

`Node.walk` and `Node.descendants` work off an agenda. As a loop this is a stack with the next node
on top: a turn takes it off, lists it, and puts its children on the stack, the last one first
(`Search.turn`). The loop ends after as many turns as there are nodes to list, and it has then
listed what the agenda lists (`Search.iterate_turn`).

Equal nodes may stand at several places of a tree, so a list of nodes is described by addresses: the
numbers of the children on the way down from the root (`Node.at?`). The lexicographic order of
addresses is the preorder of the tree. `Node.Lists` says of a list that it holds the nodes at the
addresses with a property, each of them once and in this order.

* `lists_walk` — a walk lists all nodes of a tree;
* `lists_descendants` — a search lists the nodes to which a way leads with no node of the kinds not
  to be entered strictly between (`Node.IsBelow`).

The main statement is `traversals_preorder`.
-/

namespace TreeLint

namespace Node

variable {stop : List String} {n : Node}

/-! ### The loop with a stack -/

/-- A search at work: what it has listed, and a stack of the nodes still to visit, the next one at
the end. -/
structure Search where
  listed : List Node
  stack : List Node

namespace Search

/-- One turn of the loop. With an empty stack nothing happens any more. -/
def turn (stop : List String) (s : Search) : Search :=
  match s.stack.getLast? with
  | none => s
  | some n =>
    ⟨s.listed ++ [n], s.stack.dropLast ++ if n.isAny stop then [] else n.children.reverse⟩

theorem turn_cons (listed : List Node) (n : Node) (agenda : List Node) :
    turn stop ⟨listed, (n :: agenda).reverse⟩ =
      ⟨listed ++ [n], ((if n.isAny stop then [] else n.children) ++ agenda).reverse⟩ := by
  simp only [turn, List.reverse_cons, List.getLast?_concat, List.dropLast_concat,
    List.reverse_append]
  split <;> rfl

/-- The stack holds the agenda from its end, and every turn does one step of it. -/
theorem iterate_turn (listed agenda : List Node) :
    (turn stop)^[(visit stop agenda).length] ⟨listed, agenda.reverse⟩ =
      ⟨listed ++ visit stop agenda, []⟩ := by
  induction agenda using visit.induct stop generalizing listed with
  | case1 => simp [visit]
  | case2 n agenda ih =>
    rw [dite_eq_ite] at ih
    rw [visit, List.length_cons, Function.iterate_succ_apply, turn_cons, ih, List.append_assoc,
      List.singleton_append]

end Search

theorem visit_append (xs ys : List Node) :
    visit stop (xs ++ ys) = visit stop xs ++ visit stop ys := by
  induction xs using visit.induct stop with
  | case1 => rw [visit, List.nil_append, List.nil_append]
  | case2 n agenda ih =>
    rw [dite_eq_ite] at ih
    rw [List.cons_append, visit, visit, List.cons_append, ← ih, List.append_assoc]

/-- A node of an agenda is listed before what a search finds below it. -/
theorem visit_cons (c : Node) (agenda : List Node) : visit stop (c :: agenda) =
    c :: ((if c.isAny stop then [] else c.descendants stop) ++ visit stop agenda) := by
  rw [visit, visit_append]
  split
  · rw [visit]
  · rfl

theorem length_visit (agenda : List Node) : (visit [] agenda).length = sizes agenda := by
  induction agenda using visit.induct [] with
  | case1 => rw [visit, sizes, List.length_nil]
  | case2 n agenda ih =>
    rw [dite_eq_ite] at ih
    have hopen : ¬n.isAny [] = true := Bool.false_ne_true
    rw [if_neg hopen] at ih
    rw [visit, if_neg hopen, List.length_cons, ih, sizes_append, sizes, size_eq]
    omega

theorem length_walk (n : Node) : n.walk.length = n.size := length_visit [n]

/-! ### Addresses -/

/-- The way to a node: at each step the number of the child, counted from zero. -/
abbrev Address := List Nat

/-- The root comes before everything below it. -/
theorem nil_lt_of_ne_nil {a : Address} (h : a ≠ []) : [] < a := by
  obtain ⟨i, rest, rfl⟩ := List.exists_cons_of_ne_nil h
  exact List.nil_lt_cons i rest

/-- The node at an address. -/
def at? (n : Node) : Address → Option Node
  | [] => some n
  | i :: rest => n.children[i]?.bind (at? · rest)

/-- Nodes of a tree, namely those at the addresses with a property, each address once. An address
comes before those below it, and what is below a child before what is below the next one. -/
def Lists (n : Node) (P : Address → Prop) (found : List Node) : Prop :=
  ∃ addresses : List Address, (∀ a, a ∈ addresses ↔ P a) ∧ addresses.Pairwise (· < ·) ∧
    found.map some = addresses.map n.at?

/-- An address of a node below the root, with no node of the kinds `stop` strictly between. -/
structure IsBelow (stop : List String) (n : Node) (a : Address) : Prop where
  ne_nil : a ≠ []
  isSome_at? : (n.at? a).isSome = true
  open_between : ∀ b m, b <+: a → b ≠ [] → b ≠ a → n.at? b = some m → m.kind ∉ stop

theorem at?_cons_of_getElem? {c : Node} {i : Nat} (h : n.children[i]? = some c) (a : Address) :
    n.at? (i :: a) = c.at? a := by
  rw [at?, h, Option.bind_some]

/-- An address below a node leads through a child, and goes on below it if the child is entered. -/
theorem isBelow_cons_iff {i : Nat} {a : Address} : n.IsBelow stop (i :: a) ↔
    ∃ c, n.children[i]? = some c ∧ (a = [] ∨ c.kind ∉ stop ∧ c.IsBelow stop a) := by
  constructor
  · intro h
    obtain ⟨m, hm⟩ := Option.isSome_iff_exists.1 h.isSome_at?
    obtain ⟨c, hc, hsome⟩ := Option.bind_eq_some_iff.1 hm
    refine ⟨c, hc, ?_⟩
    by_cases ha : a = []
    · exact Or.inl ha
    · refine Or.inr ⟨?_, ha, Option.isSome_of_mem hsome, ?_⟩
      · exact h.open_between [i] c (by simp) (by simp) (by simpa using Ne.symm ha)
          (at?_cons_of_getElem? hc [])
      · intro b m hprefix _ hne hm
        refine h.open_between (i :: b) m (List.cons_prefix_cons.2 ⟨rfl, hprefix⟩) (by simp)
          (by simpa using hne) ?_
        rw [at?_cons_of_getElem? hc, hm]
  · rintro ⟨c, hc, rfl | ⟨hkind, hbelow⟩⟩
    · refine ⟨by simp, by rw [at?_cons_of_getElem? hc]; rfl, ?_⟩
      -- nothing stands strictly between a node and its child
      intro b m hprefix hnil hne _
      obtain rfl | ⟨t, rfl, ht⟩ := List.prefix_cons_iff.1 hprefix
      · exact absurd rfl hnil
      · exact absurd (by rw [List.prefix_nil.1 ht]) hne
    · refine ⟨by simp, by rw [at?_cons_of_getElem? hc]; exact hbelow.isSome_at?, ?_⟩
      intro b m hprefix hnil hne hm
      obtain rfl | ⟨t, rfl, ht⟩ := List.prefix_cons_iff.1 hprefix
      · exact absurd rfl hnil
      · rw [at?_cons_of_getElem? hc] at hm
        by_cases hempty : t = []
        · subst hempty
          cases hm
          exact hkind
        · exact hbelow.open_between t m ht hempty (by rintro rfl; exact hne rfl) hm

/-! ### The addresses of a search -/

mutual
/-- The addresses that a search comes to. -/
def searched (stop : List String) : Node → List Address
  | .mk _ cs => searchedFrom stop 0 cs
/-- The addresses that a search comes to at the children from a number on. -/
def searchedFrom (stop : List String) (i : Nat) : List Node → List Address
  | [] => []
  | c :: cs =>
    [i] :: ((if c.isAny stop then [] else (searched stop c).map (i :: ·)) ++
      searchedFrom stop (i + 1) cs)
end

theorem searched_eq (n : Node) : n.searched stop = searchedFrom stop 0 n.children := by
  cases n
  rfl

theorem mem_searchedFrom_iff {cs : List Node} {i : Nat} {a : Address} :
    a ∈ searchedFrom stop i cs ↔ ∃ j c rest, cs[j]? = some c ∧ a = (i + j) :: rest ∧
      (rest = [] ∨ c.kind ∉ stop ∧ rest ∈ c.searched stop) := by
  induction cs generalizing i with
  | nil => simp [searchedFrom]
  | cons c cs ih =>
    have hkind : c.isAny stop = true ↔ c.kind ∈ stop := List.contains_iff_mem
    have hfirst : (a ∈ if c.isAny stop then [] else (c.searched stop).map (i :: ·)) ↔
        ∃ rest, a = i :: rest ∧ c.kind ∉ stop ∧ rest ∈ c.searched stop := by
      split
      · rename_i hstop
        simp [hkind.1 hstop]
      · rename_i hopen
        rw [List.mem_map]
        constructor
        · rintro ⟨rest, hrest, rfl⟩
          exact ⟨rest, rfl, mt hkind.2 hopen, hrest⟩
        · rintro ⟨rest, rfl, -, hrest⟩
          exact ⟨rest, hrest, rfl⟩
    rw [searchedFrom, List.mem_cons, List.mem_append, hfirst, ih]
    constructor
    · rintro (rfl | ⟨rest, rfl, hopen⟩ | ⟨j, d, rest, hd, rfl, hrest⟩)
      · exact ⟨0, c, [], rfl, rfl, Or.inl rfl⟩
      · exact ⟨0, c, rest, rfl, rfl, Or.inr hopen⟩
      · exact ⟨j + 1, d, rest, hd, by rw [Nat.add_assoc, Nat.add_comm 1 j], hrest⟩
    · rintro ⟨j, d, rest, hd, rfl, hrest⟩
      cases j with
      | zero =>
        cases hd
        rcases hrest with rfl | hopen
        · exact Or.inl rfl
        · exact Or.inr (Or.inl ⟨rest, rfl, hopen⟩)
      | succ j =>
        exact Or.inr (Or.inr ⟨j, d, rest, hd, by rw [Nat.add_assoc, Nat.add_comm 1 j], hrest⟩)

theorem mem_searched_iff {a : Address} : a ∈ n.searched stop ↔ n.IsBelow stop a := by
  induction n using Node.induction generalizing a with
  | node l cs ih =>
    rw [searched_eq, mem_searchedFrom_iff]
    simp only [Nat.zero_add, children_mk]
    constructor
    · rintro ⟨j, c, rest, hc, rfl, hrest⟩
      refine isBelow_cons_iff.2 ⟨c, hc, ?_⟩
      rwa [ih c (List.mem_of_getElem? hc)] at hrest
    · intro h
      cases a with
      | nil => exact absurd rfl h.ne_nil
      | cons j rest =>
        obtain ⟨c, hc, hrest⟩ := isBelow_cons_iff.1 h
        rw [← ih c (List.mem_of_getElem? hc)] at hrest
        exact ⟨j, c, rest, hc, rfl, hrest⟩

/-- The addresses come in the order of the tree. -/
theorem pairwise_searched (n : Node) : (n.searched stop).Pairwise (· < ·) := by
  induction n using Node.induction with
  | node l cs ih =>
    rw [searched_eq]
    show (searchedFrom stop 0 cs).Pairwise (· < ·)
    generalize 0 = i
    induction cs generalizing i with
    | nil => exact .nil
    | cons c cs ihs =>
      have hlater : ∀ a ∈ searchedFrom stop (i + 1) cs, ∃ j rest, a = j :: rest ∧ i < j := by
        intro a ha
        obtain ⟨j, d, rest, -, rfl, -⟩ := mem_searchedFrom_iff.1 ha
        exact ⟨i + 1 + j, rest, rfl, by omega⟩
      have hinside : ∀ a ∈ (if c.isAny stop then [] else (c.searched stop).map (i :: ·)),
          ∃ rest, a = i :: rest ∧ rest ≠ [] := by
        intro a ha
        split at ha
        · cases ha
        · obtain ⟨rest, hrest, rfl⟩ := List.mem_map.1 ha
          exact ⟨rest, rfl, (mem_searched_iff.1 hrest).ne_nil⟩
      rw [searchedFrom, List.pairwise_cons, List.pairwise_append]
      refine ⟨?_, ?_, ihs (fun d hd => ih d (List.mem_cons_of_mem c hd)) (i + 1), ?_⟩
      · intro a ha
        rcases List.mem_append.1 ha with hin | hlate
        · obtain ⟨rest, rfl, hne⟩ := hinside a hin
          exact List.cons_lt_cons_iff.2 (Or.inr ⟨rfl, nil_lt_of_ne_nil hne⟩)
        · obtain ⟨j, rest, rfl, hlt⟩ := hlater a hlate
          exact List.cons_lt_cons_iff.2 (Or.inl hlt)
      · split
        · exact .nil
        · rw [List.pairwise_map]
          refine (ih c List.mem_cons_self).imp ?_
          intro a b hab
          exact List.cons_lt_cons_iff.2 (Or.inr ⟨rfl, hab⟩)
      · intro a ha b hb
        obtain ⟨rest, rfl, -⟩ := hinside a ha
        obtain ⟨j, rest', rfl, hlt⟩ := hlater b hb
        exact List.cons_lt_cons_iff.2 (Or.inl hlt)

/-- At the addresses stand the nodes that the search lists. -/
theorem map_at?_searched (n : Node) :
    (n.searched stop).map n.at? = (n.descendants stop).map some := by
  induction n using Node.induction with
  | node l cs ih =>
    have hfrom : ∀ (i : Nat) (rest : List Node), cs.drop i = rest →
        (searchedFrom stop i rest).map (Node.mk l cs).at? = (visit stop rest).map some := by
      intro i rest
      induction rest generalizing i with
      | nil =>
        intro _
        rw [searchedFrom, visit]
        rfl
      | cons c rest ihs =>
        intro hdrop
        have hc : cs[i]? = some c := by
          rw [← List.head?_drop, hdrop, List.head?_cons]
        have hrest : cs.drop (i + 1) = rest := by
          rw [← List.tail_drop, hdrop, List.tail_cons]
        have hin : ((if c.isAny stop then [] else (c.searched stop).map (i :: ·)).map
            (Node.mk l cs).at?) =
            (if c.isAny stop then [] else c.descendants stop).map some := by
          split
          · rfl
          · rw [List.map_map, ← ih c (List.mem_of_getElem? hc)]
            exact List.map_congr_left fun a _ => at?_cons_of_getElem? hc a
        rw [searchedFrom, visit_cons, List.map_cons, List.map_append, List.map_cons,
          List.map_append, hin, ihs (i + 1) hrest, at?_cons_of_getElem? hc]
        rfl
    rw [searched_eq]
    exact hfrom 0 cs rfl

/-- **What a search lists.** -/
theorem lists_descendants (stop : List String) (n : Node) :
    n.Lists (n.IsBelow stop) (n.descendants stop) :=
  ⟨n.searched stop, fun _ => mem_searched_iff, pairwise_searched n, (map_at?_searched n).symm⟩

theorem isBelow_nil_iff {a : Address} :
    n.IsBelow [] a ↔ a ≠ [] ∧ (n.at? a).isSome = true := by
  constructor
  · intro h
    exact ⟨h.ne_nil, h.isSome_at?⟩
  · rintro ⟨hne, hsome⟩
    exact ⟨hne, hsome, fun _ _ _ _ _ _ => List.not_mem_nil⟩

/-- **What a walk lists.** -/
theorem lists_walk (n : Node) : n.Lists (fun a => (n.at? a).isSome = true) n.walk := by
  obtain ⟨addresses, hmem, hordered, hmap⟩ := lists_descendants [] n
  refine ⟨[] :: addresses, ?_, ?_, ?_⟩
  · intro a
    rw [List.mem_cons, hmem, isBelow_nil_iff]
    by_cases ha : a = []
    · simp [ha, at?]
    · simp [ha]
  · refine List.pairwise_cons.2 ⟨?_, hordered⟩
    intro a ha
    exact nil_lt_of_ne_nil ((hmem a).1 ha).ne_nil
  · rw [walk_eq_cons_descendants, List.map_cons, List.map_cons, hmap]
    rfl

/-! ### Both loops -/

/-- **The loops with a stack are recursion on the tree.** Both end. A walk lists a node and then the
walks of its children one after the other, which are the nodes at all addresses. A search lists the
nodes strictly below to which the way is open, whatever the kind of the node itself; with all ways
open it lists what the walk lists after its first node. In a nested tree a walk never steps back. -/
theorem traversals_preorder (n : Node) :
    ((Search.turn [])^[n.size] ⟨[], [n]⟩ = ⟨n.walk, []⟩ ∧
      n.walk = n :: n.children.flatMap walk ∧
      n.Lists (fun a => (n.at? a).isSome = true) n.walk) ∧
    (∀ stop,
      (Search.turn stop)^[(n.descendants stop).length] ⟨[], n.children.reverse⟩ =
        ⟨n.descendants stop, []⟩ ∧
      n.Lists (n.IsBelow stop) (n.descendants stop)) ∧
    n.descendants [] = n.walk.tail ∧
    (n.Nested → (∀ m ∈ n.walk, m.label.startByte ≤ m.label.endByte) →
      n.walk.Pairwise fun a b => a.label.startByte ≤ b.label.startByte) := by
  refine ⟨⟨?_, walk_eq_cons n, lists_walk n⟩, ?_, ?_, Nested.pairwise_start_walk⟩
  · rw [← length_walk]
    exact Search.iterate_turn [] [n]
  · intro stop
    exact ⟨Search.iterate_turn [] n.children, lists_descendants stop n⟩
  · rw [walk_eq_cons_descendants, List.tail_cons]

/-- Its nodes start at 0, 0, 1, 1, 2 and 3: a node and its first child may start together. -/
theorem walk_starts_of_call :
    let call : Node := .mk { kind := "call_expression", startByte := 0, endByte := 4 } [
      .mk { kind := "identifier", startByte := 0, endByte := 1 } [],
      .mk { kind := "arguments", startByte := 1, endByte := 4 } [
        .mk { kind := "(", startByte := 1, endByte := 2 } [],
        .mk { kind := "number", startByte := 2, endByte := 3 } [],
        .mk { kind := ")", startByte := 3, endByte := 4 } []]]
    call.walk.map (·.label.startByte) = [0, 0, 1, 1, 2, 3] ∧
      call.walk.Pairwise fun a b => a.label.startByte ≤ b.label.startByte := by
  intro call
  refine ⟨by rw [walk_eq_preorder]; decide, (traversals_preorder call).2.2.2 (by decide) ?_⟩
  rw [walk_eq_preorder]
  decide

end Node

end TreeLint
