import TreeLint.Proofs.Position.Bytes
import TreeLint.Proofs.Tree.Correspondence
import TreeLint.Rule.Basic

/-!
# Rules on sources that correspond

Two sources whose trees correspond and whose nodes stand for the same text, `k` characters apart
(`Simulation`). A check of one node is a short computation that may fail; on related nodes both
checks give related results, or fail alike (`Alike`). This goes through every step of a check
(`Alike.bind`), through a whole run (`Run.alike_each`) and up to the rule
(`Rule.visit_ofOutputs_eq_moved`).

What the two sources are is left open: the text may have grown in front, or comments may have
been added to the tree.
-/

namespace TreeLint

/-! ### Moved offsets -/

/-- A refused range with both offsets greater by `k`. -/
def RangeError.moved (k : Nat) (e : RangeError) : RangeError := ⟨e.start + k, e.stop + k⟩

/-- A failure with the offsets it names greater by `k`. -/
def RuleFailure.moved (k : Nat) : RuleFailure → RuleFailure
  | .range e => .range (e.moved k)
  | .rootless => .rootless
  | .option => .option
  | .longNumber => .longNumber
  | .raised => .raised

namespace OffsetRange

/-- A range with both offsets greater by `k`. -/
def moved (k : Nat) (r : OffsetRange) : OffsetRange :=
  ⟨r.start + k, r.stop + k, Nat.add_le_add_right r.start_le_stop k⟩

@[simp] theorem start_moved (k : Nat) (r : OffsetRange) : (r.moved k).start = r.start + k := rfl

@[simp] theorem stop_moved (k : Nat) (r : OffsetRange) : (r.moved k).stop = r.stop + k := rfl

/-- Moved offsets bound the moved range, or are refused alike. -/
theorem of_add {a : Int} (ha : 0 ≤ a) (b : Int) (k : Nat) :
    (∃ r, of a b = .ok r ∧ of (a + k) (b + k) = .ok (r.moved k)) ∨
      ∃ e, of a b = .error e ∧ of (a + k) (b + k) = .error (e.moved k) := by
  by_cases h : a ≤ b
  · have hok : of a b = .ok ⟨a.toNat, b.toNat, by omega⟩ := dif_pos ⟨ha, h⟩
    refine Or.inl ⟨_, hok, of_ok_iff.2 ⟨?_, ?_⟩⟩
    · show ((a.toNat + k : Nat) : Int) = a + k
      omega
    · show ((b.toNat + k : Nat) : Int) = b + k
      omega
  · refine Or.inr ⟨⟨a, b⟩, dif_neg fun hab => h hab.2, dif_neg fun hab => h ?_⟩
    omega

end OffsetRange

/-- An output with both offsets greater by `k`. -/
def Output.moved (k : Nat) : Output → Output
  | .diagnostic d => .diagnostic { d with range := d.range.moved k }
  | .highlight h => .highlight { h with range := h.range.moved k }
  | .edit e => .edit { e with start := e.start + k, stop := e.stop + k }

/-- A yielded value with the offsets of an output greater by `k`. -/
def Yield.moved (k : Nat) : Yield → Yield
  | .output o => .output (o.moved k)
  | .stray v => .stray v

/-- A run with all offsets greater by `k`, those of its failure included. -/
def Run.moved (k : Nat) (r : Run Yield) : Run Yield :=
  ⟨r.results.map (Yield.moved k), r.failure.map (RuleFailure.moved k)⟩

/-! ### Computations that give related results -/

section Alike

variable {α β γ δ : Type} {k : Nat}

/-- Both computations come to related results, or fail alike. -/
inductive Alike (k : Nat) (Q : α → β → Prop) :
    Except RuleFailure α → Except RuleFailure β → Prop where
  | ok {a : α} {b : β} (related : Q a b) : Alike k Q (.ok a) (.ok b)
  | error (e : RuleFailure) : Alike k Q (.error e) (.error (e.moved k))

namespace Alike

variable {Q : α → β → Prop} {S : γ → δ → Prop} {x : Except RuleFailure α}
  {x' : Except RuleFailure β}

theorem bind {f : α → Except RuleFailure γ} {f' : β → Except RuleFailure δ} (h : Alike k Q x x')
    (hf : ∀ a b, Q a b → Alike k S (f a) (f' b)) : Alike k S (x >>= f) (x' >>= f') := by
  cases h with
  | ok related => exact hf _ _ related
  | error e => exact .error e

theorem map {f : α → γ} {f' : β → δ} (h : Alike k Q x x') (hf : ∀ a b, Q a b → S (f a) (f' b)) :
    Alike k S (x.map f) (x'.map f') := by
  cases h with
  | ok related => exact .ok (hf _ _ related)
  | error e => exact .error e

theorem mapM {R : γ → δ → Prop} {f : γ → Except RuleFailure α} {f' : δ → Except RuleFailure β}
    {xs : List γ} {ys : List δ} (h : List.Forall₂ R xs ys)
    (hf : ∀ x y, R x y → Alike k Q (f x) (f' y)) :
    Alike k (List.Forall₂ Q) (xs.mapM f) (ys.mapM f') := by
  induction h with
  | nil => exact .ok .nil
  | cons head _ ih =>
    rw [List.mapM_cons, List.mapM_cons]
    refine (hf _ _ head).bind fun a b hab => ih.bind fun as bs habs => ?_
    exact .ok (.cons hab habs)

end Alike

/-- Both runs come to related results one by one and end alike. -/
structure Run.Alike (k : Nat) (Q : α → β → Prop) (r : Run α) (r' : Run β) : Prop where
  results : List.Forall₂ Q r.results r'.results
  failure : r'.failure = r.failure.map (RuleFailure.moved k)

/-- Runs over lists that match are alike, if nothing comes of what was put in between. -/
theorem Run.alike_each {R : γ → δ → Prop} {P : δ → Prop} {Q : α → β → Prop} {xs : List γ}
    {ys : List δ} {f : γ → Except RuleFailure (List α)} {f' : δ → Except RuleFailure (List β)}
    (h : Padded R P xs ys) (hR : ∀ x y, R x y → TreeLint.Alike k (List.Forall₂ Q) (f x) (f' y))
    (hP : ∀ y, P y → f' y = .ok []) : Run.Alike k Q (Run.each f xs) (Run.each f' ys) := by
  induction h with
  | nil => exact ⟨.nil, rfl⟩
  | @step x y xs ys head _ ih =>
    have hstep := hR x y head
    rw [Run.each, Run.each]
    generalize f x = first, f' y = first' at hstep
    cases hstep with
    | error e => exact ⟨.nil, rfl⟩
    | ok related => exact ⟨List.rel_append related ih.results, ih.failure⟩
  | pad head _ ih =>
    rw [Run.each, hP _ head]
    exact ⟨ih.results, ih.failure⟩

end Alike

theorem eq_map_of_forall₂ {α β : Type} {f : α → β} {xs : List α} {ys : List β}
    (h : List.Forall₂ (fun x y => y = f x) xs ys) : ys = xs.map f := by
  induction h with
  | nil => rfl
  | cons head _ ih => rw [List.map_cons, head, ih]

/-- Outputs of which the second is the first, moved. -/
def Output.Moves (k : Nat) (out out' : Output) : Prop := out' = out.moved k

theorem RuleInfo.moves_diagnostic {k : Nat} (i : RuleInfo) {r r' : OffsetRange}
    (message : String) (hstart : r'.start = r.start + k) (hstop : r'.stop = r.stop + k) :
    Output.Moves k (i.diagnostic r message) (i.diagnostic r' message) := by
  cases r'
  subst hstart hstop
  rfl

/-- Rules whose outputs move are rules that move. -/
theorem Rule.visit_ofOutputs_eq_moved {k : Nat} {i : RuleInfo}
    {visit : Source → Options → Run Output} {s s' : Source} {o : Options}
    (h : Run.Alike k (Output.Moves k) (visit s o) (visit s' o)) :
    (Rule.ofOutputs i visit).visit s' o = ((Rule.ofOutputs i visit).visit s o).moved k := by
  have hresults : (visit s' o).results = (visit s o).results.map (Output.moved k) :=
    eq_map_of_forall₂ h.results
  show Run.mk ((visit s' o).results.map Yield.output) (visit s' o).failure =
    Run.mk (((visit s o).results.map Yield.output).map (Yield.moved k)) _
  rw [h.failure, hresults, List.map_map, List.map_map]
  rfl

/-! ### Sources that correspond -/

/-- Trees with related roots, or both without one. -/
inductive SyntaxTree.Rel (R : Node → Node → Prop) : SyntaxTree → SyntaxTree → Prop where
  | rootless : SyntaxTree.Rel R .rootless .rootless
  | rooted {root root' : Node} (related : R root root') :
    SyntaxTree.Rel R (.rooted root) (.rooted root')

/-- The bytes of a node. -/
def Node.bytes (n : Node) : Int × Int := (n.label.startByte, n.label.endByte)

/-- Nodes that correspond stand for the same text, `k` characters further in the second source. -/
structure Simulation (k : Nat) (s s' : Source) (R : Node → Node → Prop) : Prop
    extends Correspondence R where
  tree : Option.Rel (SyntaxTree.Rel R) s.tree s'.tree
  start : ∀ {n n'}, R n n' → s'.index.offsetOfByte n'.label.startByte =
    s.index.offsetOfByte n.label.startByte + k
  stop : ∀ {n n'}, R n n' → s'.index.offsetOfByte n'.label.endByte =
    s.index.offsetOfByte n.label.endByte + k
  /-- A node takes as many bytes as its counterpart. -/
  width : ∀ {n n'}, R n n' → n'.label.endByte - n'.label.startByte =
    n.label.endByte - n.label.startByte
  /-- Two nodes have the same bytes exactly when their counterparts have. -/
  bytes : ∀ {n n' m m'}, R n n' → R m m' → (n'.bytes = m'.bytes ↔ n.bytes = m.bytes)
  slice : ∀ r : OffsetRange, r.stop ≤ s.text.length →
    (r.moved k).slice s'.text = r.slice s.text

/-- A range inside a text of a length, and the same range moved. -/
structure OffsetRange.Moves (k length : Nat) (r r' : OffsetRange) : Prop where
  eq_moved : r' = r.moved k
  stop_le : r.stop ≤ length

namespace Simulation

variable {k : Nat} {s s' : Source} {R : Node → Node → Prop} (sim : Simulation k s s' R)
  {n n' : Node}

include sim

theorem span (h : R n n') :
    Alike k (OffsetRange.Moves k s.text.length) (s.span n) (s'.span n') := by
  have hof := OffsetRange.of_add (Int.natCast_nonneg (s.index.offsetOfByte n.label.startByte))
    (s.index.offsetOfByte n.label.endByte) k
  rw [Source.span, Source.span, sim.start h, sim.stop h, Int.natCast_add, Int.natCast_add]
  obtain ⟨r, hr, hr'⟩ | ⟨e, he, he'⟩ := hof
  · have hstop : r.stop ≤ s.text.length := by
      have hle := PositionIndex.offsetOfByte_le s.text n.label.endByte
      rw [← s.index_eq] at hle
      have := (OffsetRange.of_ok_iff.1 hr).2
      omega
    rw [hr, hr']
    exact .ok ⟨rfl, hstop⟩
  · rw [he, he']
    exact .error _

theorem textOf (h : R n n') : Alike k Eq (s.textOf n) (s'.textOf n') := by
  refine (sim.span h).map fun r r' hr => ?_
  rw [hr.eq_moved, sim.slice r hr.stop_le]

theorem reads (h : R n n') (word : String) : Alike k Eq (s.reads n word) (s'.reads n' word) := by
  refine (sim.textOf h).map fun t t' ht => ?_
  rw [ht]

/-- A diagnostic over a node moves with it. -/
theorem diagnostic (h : R n n') (i : RuleInfo) (message : String) :
    Alike k (List.Forall₂ (Output.Moves k))
      (do return [i.diagnostic (← s.span n) message])
      (do return [i.diagnostic (← s'.span n') message]) := by
  refine (sim.span h).bind fun r r' hr => ?_
  rw [hr.eq_moved]
  exact .ok (.cons (i.moves_diagnostic message rfl rfl) .nil)

/-- Runs over what is taken from both roots are alike. -/
theorem each {α α' β β' : Type} {S : α → α' → Prop} {P : α' → Prop} {Q : β → β' → Prop}
    {list : Node → List α} {list' : Node → List α'} {f : α → Except RuleFailure (List β)}
    {f' : α' → Except RuleFailure (List β')}
    (hlist : ∀ {root root'}, R root root' → Padded S P (list root) (list' root'))
    (hS : ∀ x y, S x y → Alike k (List.Forall₂ Q) (f x) (f' y)) (hP : ∀ y, P y → f' y = .ok []) :
    Run.Alike k Q (s.each list f) (s'.each list' f') := by
  rw [Source.each, Source.each]
  obtain ⟨ht, ht'⟩ | ⟨t, t', ht, ht', htree⟩ := sim.tree.eq_none_or_eq_some
  · rw [ht, ht']
    exact ⟨.nil, rfl⟩
  · rw [ht, ht']
    cases htree with
    | rootless => exact ⟨.nil, rfl⟩
    | rooted related => exact Run.alike_each (hlist related) hS hP

end Simulation

end TreeLint
