import TreeLint.Proofs.Rule.OrderedVisit
import TreeLint.Proofs.Tree.Starts

/-!
# In which order `any` is reported

A walk comes to a node before what is below it. A parameter is reported as a whole, so that nothing
below it starts before what it reports; a variable or the binding of a `catch` clause reports only
its type, and a pattern before the type may hold a function with parameters of its own. They start
before the type and are reported after it.

* `check_eq` — a node reports at most one place, which is itself or its type (`place?`);
* `pairwise_places_iff` — the places follow one another in the text exactly if below no binding a
  place before its type is reported (`ReportsInOrder`).

The main statement is `visit_sorted_iff`; `patternSource_unsorted` is a source out of order.
-/

namespace TreeLint

namespace NoAny

open Node

/-- The annotated type of a node, if its characters are `any`. -/
def anyTypeIn? (t : Text) (n : Node) : Option Node :=
  (n.typeUnder? "type").filter fun type => type.textIn t == "any".toList

/-- What a node reports: a parameter itself, a binding its type. -/
def place? (t : Text) (n : Node) : Option Node :=
  if n.isAny parameterKinds then (anyTypeIn? t n).map fun _ => n
  else if n.isAny bindingKinds then anyTypeIn? t n
  else none

/-- What is reported about a place. -/
def finding (t : Text) (c : Node) : Diagnostic :=
  ⟨c.rangeIn t, message, info.id, info.defaultSeverity⟩

/-- Where a node starts in a text. -/
def startIn (t : Text) (n : Node) : Nat := (n.rangeIn t).start

/-- Nothing reported below a node starts before the type of the node, if that is `any`. -/
def ReportsInOrder (t : Text) (n : Node) : Prop :=
  ∀ type ∈ anyTypeIn? t n, ∀ m ∈ n.descendants [], ∀ c ∈ place? t m,
    startIn t type ≤ startIn t c

section

variable {t : Text} {n c : Node}

/-! ### The place that a node reports -/

theorem mem_walk_of_typeUnder? {field : String} (h : n.typeUnder? field = some c) :
    c ∈ n.walk := by
  obtain ⟨a, ha, hc⟩ := Option.bind_eq_some_iff.1 h
  refine mem_walk_of_mem_child (mem_children_of_child? ha) ?_
  rw [annotatedType?] at hc
  split at hc
  · exact mem_walk_of_mem_child (List.mem_filter.1 (List.mem_of_mem_head? hc)).1 (mem_walk_self c)
  · cases hc
    exact mem_walk_self c

theorem mem_walk_of_anyTypeIn? (h : anyTypeIn? t n = some c) : c ∈ n.walk :=
  mem_walk_of_typeUnder? (Option.filter_eq_some_iff.1 h).1

theorem mem_walk_of_place? (h : place? t n = some c) : c ∈ n.walk := by
  rw [place?] at h
  split at h
  · obtain ⟨type, -, rfl⟩ := Option.map_eq_some_iff.1 h
    exact mem_walk_self n
  · split at h
    · exact mem_walk_of_anyTypeIn? h
    · cases h

variable {s : Source}

theorem anyType?_eq (h : n.Ordered) : anyType? s n = .ok (anyTypeIn? s.text n) := by
  rw [anyType?, anyTypeIn?]
  cases htype : n.typeUnder? "type" with
  | none => rfl
  | some type =>
    have hle := h type (mem_walk_of_typeUnder? htype)
    rw [Option.filter_some]
    show (do return if ← s.reads type "any" then some type else none) = _
    rw [Source.reads_eq_textIn hle]
    rfl

/-- **What one node reports.** -/
theorem check_eq (h : n.Ordered) : check s n =
    .ok ((place? s.text n).toList.map fun c => .diagnostic (finding s.text c)) := by
  rw [check, place?, anyType?_eq h]
  cases htype : anyTypeIn? s.text n with
  | none =>
    split
    · rfl
    · split <;> rfl
  | some type =>
    have hself := Source.span_eq_rangeIn (s := s) h.bytes_le
    have hspan := Source.span_eq_rangeIn (s := s) (h type (mem_walk_of_anyTypeIn? htype))
    split
    · show (do return [info.diagnostic (← s.span n) message]) = _
      rw [hself]
      rfl
    · split
      · show (do return [info.diagnostic (← s.span type) message]) = _
        rw [hspan]
        rfl
      · rfl

/-! ### The order of the places -/

theorem not_mem_parameterKinds : ∀ kind ∈ bindingKinds, kind ∉ parameterKinds := by
  decide

/-- A parameter reports itself, and nothing below it starts before it: only bindings matter. -/
theorem reported_order_iff {root : Node} (h : root.Nested) :
    (∀ n ∈ root.walk, ∀ c, place? t n = some c → ∀ m ∈ n.descendants [], ∀ d,
      place? t m = some d → startIn t c ≤ startIn t d) ↔
    ∀ n ∈ root.walk, n.kind ∈ bindingKinds → ReportsInOrder t n := by
  refine forall₂_congr fun n hn => ?_
  by_cases hbinding : n.isAny bindingKinds = true
  · have hkind : n.kind ∈ bindingKinds := List.contains_iff_mem.1 hbinding
    have hparameter : n.isAny parameterKinds ≠ true := by
      rw [isAny, Ne, List.contains_iff_mem]
      exact not_mem_parameterKinds n.kind hkind
    have hplace : place? t n = anyTypeIn? t n := by
      rw [place?, if_neg hparameter, if_pos hbinding]
    rw [hplace]
    exact ⟨fun hbelow _ => hbelow, fun hbelow => hbelow hkind⟩
  · refine iff_of_true ?_ fun hkind => absurd (List.contains_iff_mem.2 hkind) hbinding
    intro c hc m hm d hd
    rw [place?, if_neg hbinding] at hc
    split at hc
    · obtain ⟨type, -, rfl⟩ := Option.map_eq_some_iff.1 hc
      have hbelow := mem_walk_trans (mem_walk_of_mem_descendants hm) (mem_walk_of_place? hd)
      exact PositionIndex.offsetOfByte_mono t ((h.of_mem_walk hn).within_walk d hbelow).1
    · cases hc

theorem pairwise_places_iff {root : Node} (hordered : root.Ordered) (hnested : root.Nested) :
    (root.walk.filterMap (place? t)).Pairwise (fun c d => startIn t c ≤ startIn t d) ↔
      ∀ n ∈ root.walk, n.kind ∈ bindingKinds → ReportsInOrder t n := by
  rw [← reported_order_iff hnested]
  refine hnested.pairwise_start_iff (f := (PositionIndex.ofText t).offsetOfByte)
    (fun _ _ => PositionIndex.offsetOfByte_mono t) (fun n c => mem_walk_of_place?) ?_
  intro n hn c hc
  exact PositionIndex.offsetOfByte_mono t (hordered c (mem_walk_trans hn (mem_walk_of_place? hc)))

/-! ### Visits -/

variable {root : Node}

theorem visit_eq_places (hroot : s.tree = some (.rooted root)) (h : root.Ordered) (o : Options) :
    rule.visit s o = ⟨(root.walk.filterMap (place? s.text)).map fun c =>
      .output (.diagnostic (finding s.text c)), none⟩ := by
  have hcheck : ∀ n ∈ root.walk, check s n = _ := fun n hn => check_eq (h.of_mem_walk hn)
  show (s.each Node.walk (check s)).mapResults _ = _
  rw [Source.each_eq hroot, Run.each_eq_flatMap hcheck, ← List.map_flatMap,
    ← List.filterMap_eq_flatMap_toList]
  exact congrArg (Run.mk · none) List.map_map

theorem diagnostics_visit (hroot : s.tree = some (.rooted root)) (h : root.Ordered)
    (o : Options) : (rule.visit s o).diagnostics =
      (root.walk.filterMap (place? s.text)).map (finding s.text) := by
  rw [visit_eq_places hroot h, Run.diagnostics, List.filterMap_map]
  exact congrFun List.filterMap_eq_map _

/-- **When findings about `any` follow the text.** A visit of an ordered tree ends and reports the
place of each node that has one, in the order of the walk. In a nested tree the findings start one
after the other exactly if no variable and no binding of a `catch` clause is annotated with `any`
behind a place that is reported as well. -/
theorem visit_sorted_iff (hroot : s.tree = some (.rooted root)) (hordered : root.Ordered)
    (hnested : root.Nested) (o : Options) :
    rule.visit s o = ⟨(root.walk.filterMap (place? s.text)).map fun c =>
      .output (.diagnostic (finding s.text c)), none⟩ ∧
    ((rule.visit s o).diagnostics.Pairwise (fun d e => d.range.start ≤ e.range.start) ↔
      ∀ n ∈ root.walk, n.kind ∈ bindingKinds → ReportsInOrder s.text n) := by
  refine ⟨visit_eq_places hroot hordered o, ?_⟩
  rw [diagnostics_visit hroot hordered, List.pairwise_map]
  exact pairwise_places_iff hordered hnested

end

/-! ### A pattern with a function in it -/

/-- A colon and the type `any` at the end. -/
def anyAnnotation (start stop : Int) : Node :=
  .mk { kind := "type_annotation", named := true, startByte := start, endByte := stop,
        field := some "type" } [
    .mk { kind := ":", startByte := start, endByte := start + 1 } [],
    .mk { kind := "predefined_type", named := true, startByte := stop - 3, endByte := stop } []]

/-- A function of one parameter of type `any`, as it stands in a pattern. -/
def patternFunction : Node :=
  .mk { kind := "arrow_function", named := true, startByte := 11, endByte := 24,
        field := some "right" } [
    .mk { kind := "formal_parameters", named := true, startByte := 11, endByte := 19,
          field := some "parameters" } [
      .mk { kind := "required_parameter", named := true, startByte := 12, endByte := 18 } [
        .mk { kind := "identifier", named := true, startByte := 12, endByte := 13,
              field := some "pattern" } [],
        anyAnnotation 13 18]],
    .mk { kind := "identifier", named := true, startByte := 23, endByte := 24,
          field := some "body" } []]

/-- The variable that the pattern declares, of type `any` too. -/
def patternDeclarator : Node :=
  .mk { kind := "variable_declarator", named := true, startByte := 6, endByte := 34 } [
    .mk { kind := "object_pattern", named := true, startByte := 6, endByte := 25,
          field := some "name" } [
      .mk { kind := "object_assignment_pattern", named := true, startByte := 7, endByte := 24 } [
        patternFunction]],
    anyAnnotation 25 30,
    .mk { kind := "identifier", named := true, startByte := 33, endByte := 34,
          field := some "value" } []]

/-- A pattern with a function for a default, annotated with `any`. -/
def patternSource : Source where
  kind := "ts"
  text := "const {a = (x: any) => x}: any = o;".toList
  tree := some (.rooted patternDeclarator)

/-- The type of the variable is reported before the parameter in the pattern, which starts
earlier. -/
theorem patternSource_unsorted :
    patternDeclarator.Ordered ∧ patternDeclarator.Nested ∧
    (rule.visit patternSource []).diagnostics =
      [⟨⟨27, 30, by decide⟩, message, info.id, "error"⟩,
        ⟨⟨12, 18, by decide⟩, message, info.id, "error"⟩] ∧
    ¬∀ n ∈ patternDeclarator.walk, n.kind ∈ bindingKinds →
      ReportsInOrder patternSource.text n := by
  have hordered : patternDeclarator.Ordered := by decide
  have hnested : patternDeclarator.Nested := by decide
  have hvisit : (rule.visit patternSource []).diagnostics =
      [⟨⟨27, 30, by decide⟩, message, info.id, "error"⟩,
        ⟨⟨12, 18, by decide⟩, message, info.id, "error"⟩] := by
    rw [diagnostics_visit rfl hordered, walk_eq_preorder]
    decide
  have hiff := (visit_sorted_iff (s := patternSource) rfl hordered hnested []).2
  refine ⟨hordered, hnested, hvisit, ?_⟩
  rw [← hiff, hvisit]
  decide

end NoAny

end TreeLint
