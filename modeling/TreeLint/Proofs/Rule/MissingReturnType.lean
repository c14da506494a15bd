import TreeLint.Proofs.Rule.OrderedVisit
import TreeLint.Proofs.Tree.Reach
import TreeLint.Proofs.Tree.Replacement

/-!
# Which returns call for a return type

The rule about return types searches a declaration in one of two ways: everything below it, or only
its body without nested functions and classes. Both are searches off an agenda, and both come down
to a condition on paths (`Returns`): some `return` statement is below the declaration, or below its
body with no nested scope strictly between them.

* `check_eq` — a check reports exactly the declarations without a type that return (`IsReported`);
* `Returns.unscoped` — what returns from its body returns;
* `check_regrown` — what stands below the nested scopes of a body does not matter to the search of
  the body;
* `visit_returns` — all of it for visits.
-/

namespace TreeLint

namespace MissingReturnType

open Node

/-- Whether the options ask for the body alone. -/
def searchesBody (o : Options) : Bool :=
  (Options.get o "scope_returns_to_body" (.bool false)).truthy

/-- A `return` statement counts for a declaration: in the body alone, one that no nested scope
parts from the body; otherwise any one below. -/
def Returns (bodyOnly : Bool) (n : Node) : Prop :=
  if bodyOnly then
    ∃ body ∈ n.child? "body", ∃ d, body.Reaches scopeBoundaries d ∧ d.kind = "return_statement"
  else ∃ d, n.Reaches [] d ∧ d.kind = "return_statement"

/-- A method that is a constructor, or that has the keyword of an accessor before its name. -/
def IsSpecialMethod (t : Text) (n name : Node) : Prop :=
  n.kind = "method_definition" ∧ (name.textIn t = "constructor".toList ∨
    ∃ c ∈ n.children.takeWhile (·.label.field != some "name"), c.kind ∈ ["get", "set"])

/-- A declaration that has no return type and is not left alone. -/
def IsUntyped (t : Text) (n name : Node) : Prop :=
  n.kind ∈ declarationKinds ∧ n.child? "return_type" = none ∧ ¬IsSpecialMethod t n name

/-- A declaration that has a name and no return type, is not left alone, and returns. -/
def IsReported (t : Text) (bodyOnly : Bool) (n : Node) : Prop :=
  ∃ name ∈ n.child? "name", IsUntyped t n name ∧ Returns bodyOnly n

/-- What is reported about a name. -/
def report (t : Text) (name : Node) : Output := info.diagnostic (name.rangeIn t) message

section

variable {t : Text} {bodyOnly : Bool} {n name : Node}

theorem returns_true_of_body {body : Node} (h : n.child? "body" = some body) : returns true n =
    (body.descendants scopeBoundaries).any (·.kind == "return_statement") := by
  rw [returns, if_pos rfl, h]

theorem returns_true_of_none (h : n.child? "body" = none) : returns true n = false := by
  rw [returns, if_pos rfl, h]

theorem returns_iff : returns bodyOnly n = true ↔ Returns bodyOnly n := by
  cases bodyOnly with
  | false => exact any_descendants_iff
  | true =>
    show returns true n = true ↔ ∃ body ∈ n.child? "body", _
    cases h : n.child? "body" with
    | none => simp [returns_true_of_none h]
    | some body => simpa [returns_true_of_body h] using any_descendants_iff

instance : Decidable (Returns bodyOnly n) := decidable_of_iff _ returns_iff

instance : Decidable (IsSpecialMethod t n name) :=
  inferInstanceAs (Decidable (_ ∧ _))

instance : Decidable (IsUntyped t n name) :=
  inferInstanceAs (Decidable (_ ∧ _))

instance : Decidable (IsReported t bodyOnly n) :=
  inferInstanceAs (Decidable (∃ name ∈ n.child? "name", _))

theorem isReported_iff_of_named (hname : n.child? "name" = some name) :
    IsReported t bodyOnly n ↔ IsUntyped t n name ∧ Returns bodyOnly n := by
  simp [IsReported, hname]

theorem not_isReported_of_kind (hkind : n.kind ∉ declarationKinds) :
    ¬IsReported t bodyOnly n := by
  rintro ⟨_, _, huntyped, _⟩
  exact hkind huntyped.1

/-- What returns from its body returns: the body is entered with the rest. -/
theorem Returns.unscoped (h : Returns true n) : Returns false n := by
  obtain ⟨body, hbody, d, hreach, hkind⟩ := h
  exact ⟨d, .deeper (mem_children_of_child? hbody) rfl hreach.enter_all, hkind⟩

theorem isAccessorOrConstructor_iff (hkind : n.kind = "method_definition") :
    n.isAccessorOrConstructor (name.textIn t) = true ↔ IsSpecialMethod t n name := by
  rw [isAccessorOrConstructor, isConstructorName, IsSpecialMethod, and_iff_right hkind]
  simp [isAny]

theorem IsReported.unscoped (h : IsReported t true n) : IsReported t false n := by
  obtain ⟨name, hname, huntyped, hreturns⟩ := h
  exact ⟨name, hname, huntyped, hreturns.unscoped⟩

end

/-! ### Checks -/

section

variable {s s' : Source} {bodyOnly : Bool} {n name : Node}

/-- The last step of a check: what returns is reported over its name. -/
theorem report_of_returns (s : Source) (bodyOnly : Bool) (n : Node) (h : name.Ordered) :
    (do
      if returns bodyOnly n then
        return [info.diagnostic (← s.span name) message]
      return []) =
      (.ok (if Returns bodyOnly n then [report s.text name] else []) :
        Except RuleFailure (List Output)) := by
  rw [Source.span_eq_rangeIn h.bytes_le]
  by_cases hreturns : Returns bodyOnly n
  · rw [if_pos hreturns, if_pos (returns_iff.2 hreturns)]
    rfl
  · rw [if_neg hreturns, if_neg fun hfound => hreturns (returns_iff.1 hfound)]
    rfl

/-- A declaration with a name and without a return type is reported if it is not left alone and
returns. -/
theorem check_of_named (h : n.Ordered) (hkind : n.kind ∈ declarationKinds)
    (htype : n.child? "return_type" = none) (hname : n.child? "name" = some name) :
    check s bodyOnly n =
      .ok (if ¬IsSpecialMethod s.text n name ∧ Returns bodyOnly n then [report s.text name]
        else []) := by
  have hordered := h.of_child? hname
  have hany : n.isAny declarationKinds = true := List.contains_iff_mem.2 hkind
  have hreport := report_of_returns s bodyOnly n hordered
  rw [check, hany, htype, hname]
  -- the text of the name is read for methods only
  show (if (n.kind == "method_definition") = true then s.textOf name >>= _ else _) = _
  by_cases hmethod : n.kind = "method_definition"
  · rw [beq_iff_eq.2 hmethod, Source.textOf_eq_textIn hordered.bytes_le]
    show (if n.isAccessorOrConstructor (name.textIn s.text) = true then _ else _) = _
    by_cases hspecial : IsSpecialMethod s.text n name
    · rw [if_pos ((isAccessorOrConstructor_iff hmethod).2 hspecial),
        if_neg fun hreg => hreg.1 hspecial]
      rfl
    · rw [if_neg fun hfound => hspecial ((isAccessorOrConstructor_iff hmethod).1 hfound)]
      simp only [hspecial, not_false_iff, true_and]
      exact hreport
  · have hregular : ¬IsSpecialMethod s.text n name := fun hspecial => hmethod hspecial.1
    rw [beq_eq_false_iff_ne.2 hmethod]
    simp only [hregular, not_false_iff, true_and]
    exact hreport

/-- **What a check reports.** -/
theorem check_eq (h : n.Ordered) :
    check s bodyOnly n =
      .ok (if IsReported s.text bodyOnly n then (n.child? "name").toList.map (report s.text)
        else []) := by
  by_cases hkind : n.kind ∈ declarationKinds
  · cases htype : n.child? "return_type" with
    | some type =>
      have hnot : ¬IsReported s.text bodyOnly n := by
        rintro ⟨name, -, ⟨-, htype', -⟩, -⟩
        cases htype.symm.trans htype'
      rw [if_neg hnot, check, htype]
      show (if _ then _ else _) = _
      split <;> rfl
    | none =>
      cases hname : n.child? "name" with
      | none =>
        rw [check, htype, hname]
        show (if _ then _ else _) = Except.ok (if _ then [] else [])
        simp only [ite_self]
        rfl
      | some name =>
        have hiff : IsReported s.text bodyOnly n ↔
            ¬IsSpecialMethod s.text n name ∧ Returns bodyOnly n := by
          rw [isReported_iff_of_named hname, IsUntyped, and_iff_right hkind, and_iff_right htype]
        rw [check_of_named h hkind htype hname]
        simp only [hiff]
        rfl
  · have hany : n.isAny declarationKinds = false :=
      Bool.eq_false_iff.2 fun h => hkind (List.contains_iff_mem.1 h)
    rw [if_neg (not_isReported_of_kind hkind), check, hany]
    rfl

/-! ### Nested scopes -/

variable {n' body body' : Node}

/-- A body is searched alike whatever stands below its nested scopes. -/
theorem returns_regrown (h : Replaces (IsUnder "body") body body' n n')
    (hbelow : List.Forall₂ (AgreesOutside scopeBoundaries) body.children body'.children) :
    returns true n' = returns true n := by
  rw [returns_true_of_body h.child?_eq.1, returns_true_of_body h.child?_eq.2]
  exact AgreesOutside.any_kind_eq (AgreesOutside.visit hbelow) _

/-- **The verdict on a declaration is its own.** With the body searched alone, a check comes to the
same result whatever stands below the nested scopes of the body. -/
theorem check_regrown (htext : s'.text = s.text) (h : Replaces (IsUnder "body") body body' n n')
    (hlabel : body'.label = body.label)
    (hbelow : List.Forall₂ (AgreesOutside scopeBoundaries) body.children body'.children) :
    check s' true n' = check s true n := by
  have hspecial : n'.isAccessorOrConstructor = n.isAccessorOrConstructor :=
    isAccessorOrConstructor_eq_of_labels (h.labels_eq hlabel)
  rw [check, check, isAny, isAny, h.kind_eq, h.child?_of_ne (by decide : "return_type" ≠ "body"),
    h.child?_of_ne (by decide : "name" ≠ "body"), hspecial, returns_regrown h hbelow,
    Source.span_congr htext, Source.textOf_congr htext]

end

/-! ### Visits -/

variable {s : Source} {root : Node}

/-- What a visit reports, declaration by declaration. -/
theorem visit_eq_reports (hroot : s.tree = some (.rooted root)) (h : root.Ordered) (o : Options) :
    rule.visit s o =
      ⟨((root.walk.filter (IsReported s.text (searchesBody o) ·)).filterMap (·.child? "name")).map
        fun name => .output (report s.text name), none⟩ := by
  have hchecks : ∀ n ∈ root.walk, check s (searchesBody o) n =
      .ok (if IsReported s.text (searchesBody o) n then
        (n.child? "name").toList.map (report s.text) else []) :=
    fun n hn => check_eq (h.of_mem_walk hn)
  exact Rule.visit_eq_filterMap hroot hchecks

/-- **Exactly the declarations that return are reported.** In a tree whose nodes start before they
end, the rule reports the declarations that have a name and no return type, are neither accessors
nor constructors, and return: each once, over its name, in the order of the walk. With the body
searched alone, the verdict on a declaration stays the same whatever stands below the nested scopes
of its body, and what is reported is a sublist of what is reported otherwise. -/
theorem visit_returns (hroot : s.tree = some (.rooted root)) (h : root.Ordered) :
    (∀ o, rule.visit s o =
      ⟨((root.walk.filter (IsReported s.text (searchesBody o) ·)).filterMap (·.child? "name")).map
        fun name => .output (report s.text name), none⟩) ∧
    (∀ s' : Source, s'.text = s.text → ∀ n n' body body' : Node,
      Replaces (IsUnder "body") body body' n n' → body'.label = body.label →
      List.Forall₂ (AgreesOutside scopeBoundaries) body.children body'.children →
      check s' true n' = check s true n) ∧
    ∀ o o', searchesBody o = true → searchesBody o' = false →
      (rule.visit s o).results.Sublist (rule.visit s o').results := by
  refine ⟨visit_eq_reports hroot h, fun s' htext n n' body body' => check_regrown htext, ?_⟩
  intro o o' ho ho'
  -- both visits walk the same nodes, and one of them puts a stronger test to each
  rw [visit_eq_reports hroot h o, visit_eq_reports hroot h o', ho, ho']
  exact (filterMap_filter_sublist (fun _ hn => hn.unscoped) _).map _

/-- A function of so many bytes. -/
def functionAt (start stop : Int) (children : List Node) : Node :=
  .mk { kind := "function_declaration", named := true, startByte := start, endByte := stop }
    children

/-- The name of a function. -/
def nameAt (start : Int) : Node :=
  .mk { kind := "identifier", named := true, startByte := start, endByte := start + 1,
        field := some "name" } []

/-- The body of a function. -/
def bodyAt (start stop : Int) (statements : List Node) : Node :=
  .mk { kind := "statement_block", named := true, startByte := start, endByte := stop,
        field := some "body" } statements

/-- A statement that returns. -/
def returnAt (start stop : Int) : Node :=
  .mk { kind := "return_statement", named := true, startByte := start, endByte := stop } []

/-- A function that returns. -/
def innerFunction : Node := functionAt 13 36 [nameAt 22, bodyAt 25 36 [returnAt 26 35]]

/-- A function with nothing in its body but another one. -/
def outerFunction (inner : Node) : Node := functionAt 0 37 [nameAt 9, bodyAt 12 37 [inner]]

/-- A function in whose body another one returns. -/
def nestedSource : Source where
  kind := "ts"
  text := "function f()\x7bfunction g()\x7breturn 1;\x7d\x7d".toList
  tree := some (.rooted (outerFunction innerFunction))

theorem innerFunction_returns : Returns true innerFunction :=
  ⟨bodyAt 25 36 [returnAt 26 35], rfl, returnAt 26 35, .child (.head _), rfl⟩

theorem outerFunction_returns : Returns false (outerFunction innerFunction) := by
  obtain ⟨d, hreach, hkind⟩ := innerFunction_returns.unscoped
  exact ⟨d, .deeper (.tail _ (.head _)) rfl (.deeper (.head _) rfl hreach), hkind⟩

/-- Nothing but the inner function is reached in the body of the outer one. -/
theorem outerFunction_does_not_return : ¬Returns true (outerFunction innerFunction) := by
  rintro ⟨body, hbody, d, hreach, hkind⟩
  cases hbody
  obtain ⟨c, hc, rfl | ⟨hopen, -⟩⟩ := reaches_iff.1 hreach
  · rw [List.mem_singleton.1 hc] at hkind
    revert hkind
    decide
  · rw [List.mem_singleton.1 hc] at hopen
    revert hopen
    decide

/-- Both functions are reported by default, and only the inner one with the bodies searched alone;
the outer one is then as good as one around a function of which nothing is known. -/
theorem outerFunction_scoped :
    (outerFunction innerFunction).Ordered ∧
    rule.visit nestedSource [] =
      ⟨[.output (info.diagnostic ⟨9, 10, by decide⟩ message),
        .output (info.diagnostic ⟨22, 23, by decide⟩ message)], none⟩ ∧
    rule.visit nestedSource [(.str "scope_returns_to_body", .bool true)] =
      ⟨[.output (info.diagnostic ⟨22, 23, by decide⟩ message)], none⟩ ∧
    check nestedSource true (outerFunction (functionAt 13 36 [])) =
      check nestedSource true (outerFunction innerFunction) := by
  have hordered : (outerFunction innerFunction).Ordered := by decide
  obtain ⟨hvisit, hregrown, -⟩ := visit_returns (s := nestedSource) rfl hordered
  have hreplaces : Replaces (IsUnder "body") (bodyAt 12 37 [innerFunction])
      (bodyAt 12 37 [functionAt 13 36 []]) (outerFunction innerFunction)
      (outerFunction (functionAt 13 36 [])) := .mk _ [nameAt 9] [] ⟨by decide, rfl⟩ ⟨by decide, rfl⟩
  have hwalk : (outerFunction innerFunction).walk =
      [outerFunction innerFunction, nameAt 9, bodyAt 12 37 [innerFunction], innerFunction,
        nameAt 22, bodyAt 25 36 [returnAt 26 35], returnAt 26 35] := by
    rw [Node.walk_eq_preorder]
    rfl
  have houter : ∀ bodyOnly, IsReported nestedSource.text bodyOnly (outerFunction innerFunction) ↔
      Returns bodyOnly (outerFunction innerFunction) := by
    intro bodyOnly
    exact (isReported_iff_of_named rfl).trans (and_iff_right ⟨by decide, rfl, by decide⟩)
  have hinner : ∀ bodyOnly, IsReported nestedSource.text bodyOnly innerFunction ↔
      Returns bodyOnly innerFunction := by
    intro bodyOnly
    exact (isReported_iff_of_named rfl).trans (and_iff_right ⟨by decide, rfl, by decide⟩)
  have hname : ∀ bodyOnly start, ¬IsReported nestedSource.text bodyOnly (nameAt start) :=
    fun _ _ => not_isReported_of_kind (show "identifier" ∉ declarationKinds by decide)
  have hbody : ∀ bodyOnly start stop statements,
      ¬IsReported nestedSource.text bodyOnly (bodyAt start stop statements) :=
    fun _ _ _ _ => not_isReported_of_kind (show "statement_block" ∉ declarationKinds by decide)
  have hreturn : ∀ bodyOnly start stop,
      ¬IsReported nestedSource.text bodyOnly (returnAt start stop) :=
    fun _ _ _ => not_isReported_of_kind (show "return_statement" ∉ declarationKinds by decide)
  refine ⟨hordered, ?_, ?_, hregrown _ rfl _ _ _ _ hreplaces rfl (.cons (.closed (by decide)) .nil)⟩
  · rw [hvisit, hwalk]
    have hoption : searchesBody [] = false := rfl
    simp only [List.filter_cons, hoption, houter, hinner, hname, hbody, hreturn,
      outerFunction_returns, innerFunction_returns.unscoped]
    rfl
  · rw [hvisit, hwalk]
    have hoption : searchesBody [(.str "scope_returns_to_body", .bool true)] = true := rfl
    simp only [List.filter_cons, hoption, houter, hinner, hname, hbody, hreturn,
      outerFunction_does_not_return, innerFunction_returns]
    rfl

end MissingReturnType

end TreeLint
