import TreeLint.Proofs.Rule.Simulation
import TreeLint.Rule.BuiltIn

/-!
# The built-in rules in lockstep

On sources that correspond (`Simulation`) the built-in rules take the same steps: each question a
rule puts to a node has related answers, each check of a node comes to the same outputs, moved
(`alike_check`), and nothing comes of a comment (`check_aside`). So every rule yields on the
second source what it yields on the first, with all offsets moved (`Simulation.visit_builtIn`).

Two rules need more than their checks. The one about handlers reports a span once, so spans that
are equal on one side must be equal on the other (`HandlerName.moves_firsts`). The one about
imports may fail on its options before it looks at the tree.
-/

namespace TreeLint

/-! ### Comments -/

section

variable {s : Source} {n : Node}

theorem NoAny.check_aside (h : n.IsAside) : NoAny.check s n = .ok [] := by
  unfold NoAny.check
  rw [h.isAny_eq_false (by decide), h.isAny_eq_false (by decide)]
  rfl

theorem MissingReturnType.check_aside (bodyOnly : Bool) (h : n.IsAside) :
    MissingReturnType.check s bodyOnly n = .ok [] := by
  unfold MissingReturnType.check
  rw [h.isAny_eq_false (by decide)]
  rfl

theorem AnyReturnType.check_aside (parent : Option Node) (h : n.IsAside) :
    AnyReturnType.check s parent n = .ok [] := by
  unfold AnyReturnType.check AnyReturnType.isDeclaration
  rw [h.isAny_eq_false (by decide), h.isAny_eq_false (by decide), h.kind_eq]
  rfl

theorem SwitchDefault.check_aside (h : n.IsAside) : SwitchDefault.check s n = .ok [] := by
  unfold SwitchDefault.check SwitchDefault.keyword?
  rw [h.kind_eq]
  rfl

theorem DuplicateCase.check_aside (h : n.IsAside) : DuplicateCase.check s n = .ok [] := by
  unfold DuplicateCase.check DuplicateCase.conditions
  rw [h.kind_eq]
  rfl

theorem ListKey.check_aside (inspectExpressions : Bool) (h : n.IsAside) :
    ListKey.check s inspectExpressions n = .ok [] := by
  unfold ListKey.check ListKey.method?
  rw [h.kind_eq]
  rfl

theorem FolderImport.check_aside (skipped : List Value) (h : n.IsAside) :
    FolderImport.check s skipped n = .ok [] := by
  unfold FolderImport.check FolderImport.pathNode?
  rw [h.kind_eq]
  rfl

theorem HandlerName.nameOf?_aside (h : n.IsAside) : HandlerName.nameOf? n = none := by
  unfold HandlerName.nameOf?
  rw [h.isAny_eq_false (by decide), h.kind_eq]
  simp

end

/-! ### What does not look at nodes -/

/-- The groups are formed by text, so they do not depend on where the members stand. -/
theorem DuplicateCase.repeated_map (f : OffsetRange → OffsetRange)
    (keyed : List (Text × OffsetRange)) :
    DuplicateCase.repeated (keyed.map (Prod.map id f)) =
      (DuplicateCase.repeated keyed).map (Prod.map id f) := by
  have hkeys : (keyed.map (Prod.map id f)).map Prod.fst = keyed.map Prod.fst := by
    rw [List.map_map]
    rfl
  unfold DuplicateCase.repeated
  rw [hkeys, List.map_flatMap]
  congr 1
  funext key
  have hgroup : (keyed.map (Prod.map id f)).filter (·.1 == key) =
      (keyed.filter (·.1 == key)).map (Prod.map id f) := by
    rw [List.filter_map]
    rfl
  dsimp only
  rw [hgroup, List.length_map]
  split <;> rfl

theorem FolderImport.eq_option_of_suffixes {v : Value} {e : RuleFailure}
    (h : FolderImport.suffixes v = .error e) : e = .option := by
  unfold FolderImport.suffixes at h
  split at h
  · cases h
  · split at h <;> cases h
    rfl

theorem HandlerName.eq_longNumber_of_stem {o : Options} {e : RuleFailure}
    (h : HandlerName.stem o = .error e) : e = .longNumber := by
  unfold HandlerName.stem at h
  split at h <;> cases h
  rfl

/-- Whether a path is skipped depends on the path alone, and no failure names an offset. -/
theorem FolderImport.alike_isSkipped (k : Nat) (path : Text) (skipped : List Value) :
    Alike k Eq (FolderImport.isSkipped path skipped) (FolderImport.isSkipped path skipped) := by
  fun_induction FolderImport.isSkipped path skipped with
  | case1 => exact .ok rfl
  | case2 => exact .ok rfl
  | case3 _ _ _ ih => exact ih
  | case4 => exact .ok rfl
  | case5 _ _ _ ih => exact ih
  | case6 => exact .error .option

theorem FolderImport.moves_report (k : Nat) (inner : OffsetRange) (path : Text) :
    List.Forall₂ (Output.Moves k) (FolderImport.report inner path)
      (FolderImport.report (inner.moved k) path) := by
  unfold FolderImport.report
  refine List.rel_append ?_ ?_
  · split
    · refine .cons ?_ .nil
      apply RuleInfo.moves_diagnostic
      · show inner.start + k + Text.afterLast '/' path = inner.start + Text.afterLast '/' path + k
        omega
      · show inner.start + k + path.length + 1 = inner.start + path.length + 1 + k
        omega
    · exact .nil
  · split
    · exact .cons rfl .nil
    · exact .nil

section

variable {k : Nat} {s s' : Source} {R : Node → Node → Prop} (sim : Simulation k s s' R)
  {n n' : Node}

include sim

/-! ### The rules about types -/

theorem NoAny.alike_anyType? (h : R n n') :
    Alike k (Option.Rel R) (NoAny.anyType? s n) (NoAny.anyType? s' n') := by
  unfold NoAny.anyType?
  obtain ⟨ht, ht'⟩ | ⟨t, t', ht, ht', hrel⟩ := (sim.typeUnder? h "type").eq_none_or_eq_some
  · rw [ht, ht']
    exact .ok .none
  · rw [ht, ht']
    refine (sim.reads hrel "any").bind ?_
    rintro isAny _ rfl
    cases isAny with
    | false => exact .ok .none
    | true => exact .ok (.some hrel)

theorem NoAny.alike_check (h : R n n') :
    Alike k (List.Forall₂ (Output.Moves k)) (NoAny.check s n) (NoAny.check s' n') := by
  unfold NoAny.check
  rw [sim.isAny h, sim.isAny h]
  split
  · refine (NoAny.alike_anyType? sim h).bind fun o o' ho => ?_
    cases ho with
    | none => exact .ok .nil
    | some _ => exact sim.diagnostic h _ _
  · split
    · refine (NoAny.alike_anyType? sim h).bind fun o o' ho => ?_
      cases ho with
      | none => exact .ok .nil
      | some hrel => exact sim.diagnostic hrel _ _
    · exact .ok .nil

theorem MissingReturnType.returns_eq (h : R n n') (bodyOnly : Bool) :
    MissingReturnType.returns bodyOnly n' = MissingReturnType.returns bodyOnly n := by
  unfold MissingReturnType.returns
  split
  · obtain ⟨hb, hb'⟩ | ⟨body, body', hb, hb', hrel⟩ := (sim.child? h "body").eq_none_or_eq_some
    · rw [hb, hb']
    · rw [hb, hb']
      exact sim.any_descendants hrel _ _ (by decide)
  · exact sim.any_descendants h _ _ (by decide)

theorem MissingReturnType.alike_check (bodyOnly : Bool) (h : R n n') :
    Alike k (List.Forall₂ (Output.Moves k)) (MissingReturnType.check s bodyOnly n)
      (MissingReturnType.check s' bodyOnly n') := by
  unfold MissingReturnType.check
  rw [sim.isAny h, (sim.child? h "return_type").isSome_eq, sim.kind h,
    MissingReturnType.returns_eq sim h]
  split
  · exact .ok .nil
  · split
    · exact .ok .nil
    · obtain ⟨hn, hn'⟩ | ⟨name, name', hn, hn', hrel⟩ := (sim.child? h "name").eq_none_or_eq_some
      · rw [hn, hn']
        exact .ok .nil
      · -- a method is first asked whether it is an accessor; then both go on alike
        have hfound : Alike k (List.Forall₂ (Output.Moves k))
            (do
              if MissingReturnType.returns bodyOnly n then
                return [MissingReturnType.info.diagnostic (← s.span name)
                  MissingReturnType.message]
              return [])
            (do
              if MissingReturnType.returns bodyOnly n then
                return [MissingReturnType.info.diagnostic (← s'.span name')
                  MissingReturnType.message]
              return []) := by
          split
          · exact sim.diagnostic hrel _ _
          · exact .ok .nil
        rw [hn, hn']
        dsimp only
        split
        · refine (sim.textOf hrel).bind ?_
          rintro text _ rfl
          rw [sim.isAccessorOrConstructor h]
          split
          · exact .ok .nil
          · exact hfound
        · exact hfound

theorem AnyReturnType.isDeclaration_eq {parent parent' : Option Node}
    (hparent : Option.Rel R parent parent') (h : R n n') :
    AnyReturnType.isDeclaration parent' n' = AnyReturnType.isDeclaration parent n := by
  have hclass : parent'.any (·.kind == "class_body") = parent.any (·.kind == "class_body") := by
    refine hparent.any_eq fun a b hab => ?_
    rw [sim.kind hab]
  rw [AnyReturnType.isDeclaration, AnyReturnType.isDeclaration, sim.isAny h, sim.isAny h,
    sim.kind h, hclass]

theorem AnyReturnType.alike_check {parent parent' : Option Node}
    (hparent : Option.Rel R parent parent') (h : R n n') :
    Alike k (List.Forall₂ (Output.Moves k)) (AnyReturnType.check s parent n)
      (AnyReturnType.check s' parent' n') := by
  unfold AnyReturnType.check
  have hmethod : AnyReturnType.isMethod n' = AnyReturnType.isMethod n := by
    rw [AnyReturnType.isMethod, AnyReturnType.isMethod, sim.kind h, sim.isAny h]
  rw [AnyReturnType.isDeclaration_eq sim hparent h, hmethod]
  split
  · exact .ok .nil
  · obtain ⟨hn, hn'⟩ | ⟨name, name', hn, hn', hname⟩ := (sim.child? h "name").eq_none_or_eq_some
    · rw [hn, hn']
      exact .ok .nil
    · obtain ⟨ht, ht'⟩ | ⟨type, type', ht, ht', htype⟩ :=
        (sim.typeUnder? h "return_type").eq_none_or_eq_some
      · rw [hn, hn', ht, ht']
        exact .ok .nil
      · have hfound : Alike k (List.Forall₂ (Output.Moves k))
            (do
              if ← s.reads type "any" then
                return [AnyReturnType.info.diagnostic (← s.span name) AnyReturnType.message]
              return [])
            (do
              if ← s'.reads type' "any" then
                return [AnyReturnType.info.diagnostic (← s'.span name') AnyReturnType.message]
              return []) := by
          refine (sim.reads htype "any").bind ?_
          rintro isAny _ rfl
          split
          · exact sim.diagnostic hname _ _
          · exact .ok .nil
        rw [hn, hn', ht, ht']
        dsimp only
        split
        · refine (sim.textOf hname).bind ?_
          rintro text _ rfl
          rw [sim.isAccessorOrConstructor h]
          split
          · exact .ok .nil
          · exact hfound
        · exact hfound

/-! ### The rules about switches -/

theorem SwitchDefault.rel_keyword? (h : R n n') :
    Option.Rel R (SwitchDefault.keyword? n) (SwitchDefault.keyword? n') := by
  unfold SwitchDefault.keyword?
  rw [sim.kind h]
  split
  · rename_i hswitch
    obtain ⟨hb, hb'⟩ | ⟨body, body', hb, hb', hbody⟩ := (sim.child? h "body").eq_none_or_eq_some
    · rw [hb, hb']
      exact .none
    · have hne : n.children ≠ [] := List.ne_nil_of_mem (List.mem_of_find?_eq_some hb)
      obtain ⟨hw, hw'⟩ | ⟨word, word', hw, hw', hword⟩ :=
        (sim.keyword h hswitch hne).eq_none_or_eq_some
      · rw [hb, hb', hw, hw']
        exact .none
      · have hdefault : body'.namedChildren.any (·.kind == "switch_default") =
            body.namedChildren.any (·.kind == "switch_default") := by
          have hsome := (rel_head?_of_forall₂
            (sim.namedChildren hbody "switch_default" (by decide))).isSome_eq
          rwa [List.head?_filter, List.head?_filter, List.isSome_find?, List.isSome_find?]
            at hsome
        rw [hb, hb', hw, hw']
        dsimp only
        rw [sim.kind hword, hdefault]
        split
        · exact .some hword
        · exact .none
  · exact .none

theorem SwitchDefault.alike_check (h : R n n') :
    Alike k (List.Forall₂ (Output.Moves k)) (SwitchDefault.check s n)
      (SwitchDefault.check s' n') := by
  unfold SwitchDefault.check
  obtain ⟨hw, hw'⟩ | ⟨word, word', hw, hw', hword⟩ :=
    (SwitchDefault.rel_keyword? sim h).eq_none_or_eq_some
  · rw [hw, hw']
    exact .ok .nil
  · rw [hw, hw']
    exact sim.diagnostic hword _ _

theorem DuplicateCase.forall₂_conditions (h : R n n') :
    List.Forall₂ R (DuplicateCase.conditions n) (DuplicateCase.conditions n') := by
  unfold DuplicateCase.conditions
  rw [sim.kind h]
  split
  · obtain ⟨hb, hb'⟩ | ⟨body, body', hb, hb', hbody⟩ := (sim.child? h "body").eq_none_or_eq_some
    · rw [hb, hb']
      exact .nil
    · rw [hb, hb']
      have hcases := sim.namedChildren hbody "switch_case" (by decide)
      exact List.rel_filterMap (fun a b (hab : R a b) => sim.child? hab "value") hcases
  · exact .nil

theorem DuplicateCase.alike_check (h : R n n') :
    Alike k (List.Forall₂ (Output.Moves k)) (DuplicateCase.check s n)
      (DuplicateCase.check s' n') := by
  unfold DuplicateCase.check
  refine (Alike.mapM (DuplicateCase.forall₂_conditions sim h) fun _ _ => sim.span).bind ?_
  intro ranges ranges' hranges
  have hkeyed : ranges'.map (fun r => (r.slice s'.text, r)) =
      (ranges.map fun r => (r.slice s.text, r)).map (Prod.map id (OffsetRange.moved k)) := by
    -- the texts are the same, so the conditions fall into the same groups
    rw [List.map_map]
    induction hranges with
    | nil => rfl
    | cons head _ ih =>
      rw [List.map_cons, List.map_cons, ih, head.eq_moved, sim.slice _ head.stop_le]
      rfl
  rw [hkeyed, DuplicateCase.repeated_map, List.map_map]
  refine .ok ?_
  rw [List.forall₂_map_left_iff, List.forall₂_map_right_iff, List.forall₂_same]
  intro p _
  exact RuleInfo.moves_diagnostic _ _ rfl rfl

/-! ### The rule about keys -/

theorem ListKey.rel_method? (h : R n n') :
    Option.Rel R (ListKey.method? n) (ListKey.method? n') := by
  unfold ListKey.method?
  rw [sim.kind h]
  split
  · obtain ⟨hf, hf'⟩ | ⟨f, f', hf, hf', hrel⟩ := (sim.child? h "function").eq_none_or_eq_some
    · rw [hf, hf']
      exact .none
    · rw [hf, hf']
      dsimp only
      rw [sim.kind hrel]
      split
      · exact sim.child? hrel "property"
      · exact .none
  · exact .none

theorem ListKey.rel_callback? (h : R n n') :
    Option.Rel R (ListKey.callback? n) (ListKey.callback? n') := by
  refine ((sim.child? h "arguments").bind fun _ _ => sim.firstPart?).filter ?_
  intro a b hab
  exact sim.isAny hab _

theorem ListKey.rel_returned? (inspectExpressions : Bool) (h : R n n') :
    Option.Rel R (ListKey.returned? inspectExpressions n)
      (ListKey.returned? inspectExpressions n') := by
  unfold ListKey.returned?
  obtain ⟨hb, hb'⟩ | ⟨body, body', hb, hb', hbody⟩ := (sim.child? h "body").eq_none_or_eq_some
  · rw [hb, hb']
    exact .none
  · rw [hb, hb']
    dsimp only
    rw [sim.kind hbody]
    split
    · obtain ⟨hl, hl'⟩ | ⟨last, last', hl, hl', hlast⟩ :=
        (sim.lastPart? hbody).eq_none_or_eq_some
      · rw [hl, hl']
        exact .none
      · rw [hl, hl']
        dsimp only
        rw [sim.kind hlast]
        split
        · exact sim.firstPart? hlast
        · exact .none
    · split
      · exact .some hbody
      · exact .none

theorem ListKey.rel_element? (inspectExpressions : Bool) (h : R n n') :
    Option.Rel R (ListKey.element? inspectExpressions n)
      (ListKey.element? inspectExpressions n') := by
  refine ((ListKey.rel_returned? sim inspectExpressions h).bind fun _ _ => sim.unwrapped).filter ?_
  intro a b hab
  exact sim.isAny hab _

theorem ListKey.rel_tag? (h : R n n') : Option.Rel R (ListKey.tag? n) (ListKey.tag? n') := by
  unfold ListKey.tag?
  rw [sim.kind h]
  split
  · exact (sim.child? h "open_tag").or (sim.firstPart? h)
  · exact .some h

theorem ListKey.alike_anyKey {attributes attributes' : List Node}
    (h : List.Forall₂ R attributes attributes') :
    Alike k Eq (ListKey.anyKey s attributes) (ListKey.anyKey s' attributes') := by
  induction h with
  | nil => exact .ok rfl
  | cons head _ ih =>
    rw [ListKey.anyKey, ListKey.anyKey]
    obtain ⟨hp, hp'⟩ | ⟨name, name', hp, hp', hname⟩ := (sim.firstPart? head).eq_none_or_eq_some
    · rw [hp, hp']
      exact ih
    · rw [hp, hp']
      refine (sim.reads hname "key").bind ?_
      rintro isKey _ rfl
      split
      · exact .ok rfl
      · exact ih

theorem ListKey.alike_hasKey (h : R n n') :
    Alike k Eq (ListKey.hasKey s n) (ListKey.hasKey s' n') := by
  unfold ListKey.hasKey
  obtain ⟨ht, ht'⟩ | ⟨tag, tag', ht, ht', htag⟩ := (ListKey.rel_tag? sim h).eq_none_or_eq_some
  · rw [ht, ht']
    exact .ok rfl
  · rw [ht, ht']
    dsimp only
    rw [(sim.child? htag "name").isNone_eq]
    split
    · exact .ok rfl
    · exact ListKey.alike_anyKey sim (sim.namedChildren htag "jsx_attribute" (by decide))

theorem ListKey.alike_check (inspectExpressions : Bool) (h : R n n') :
    Alike k (List.Forall₂ (Output.Moves k)) (ListKey.check s inspectExpressions n)
      (ListKey.check s' inspectExpressions n') := by
  unfold ListKey.check
  obtain ⟨hm, hm'⟩ | ⟨method, method', hm, hm', hmethod⟩ :=
    (ListKey.rel_method? sim h).eq_none_or_eq_some
  · rw [hm, hm']
    exact .ok .nil
  · rw [hm, hm']
    refine (sim.reads hmethod "map").bind ?_
    rintro isMap _ rfl
    split
    · exact .ok .nil
    · have helement := (ListKey.rel_callback? sim h).bind
        fun _ _ => ListKey.rel_element? sim inspectExpressions
      obtain ⟨he, he'⟩ | ⟨element, element', he, he', hrel⟩ := helement.eq_none_or_eq_some
      · rw [he, he']
        exact .ok .nil
      · rw [he, he']
        refine (ListKey.alike_hasKey sim hrel).bind ?_
        rintro keyed _ rfl
        split
        · exact .ok .nil
        · refine (sim.span hmethod).bind fun r r' hr => ?_
          rw [hr.eq_moved]
          exact .ok (.cons rfl .nil)

/-! ### The rule about imports -/

theorem FolderImport.rel_pathNode? (h : R n n') :
    Option.Rel R (FolderImport.pathNode? n) (FolderImport.pathNode? n') := by
  unfold FolderImport.pathNode?
  rw [sim.kind h]
  split
  · refine (sim.child? h "source").filter fun a b hab => ?_
    rw [sim.kind hab, sim.width hab]
  · exact .none

theorem FolderImport.alike_check (skipped : List Value) (h : R n n') :
    Alike k (List.Forall₂ (Output.Moves k)) (FolderImport.check s skipped n)
      (FolderImport.check s' skipped n') := by
  unfold FolderImport.check
  obtain ⟨hc, hc'⟩ | ⟨c, c', hc, hc', hrel⟩ :=
    (FolderImport.rel_pathNode? sim h).eq_none_or_eq_some
  · rw [hc, hc']
    exact .ok .nil
  · rw [hc, hc']
    refine (sim.span hrel).bind fun quoted quoted' hquoted => ?_
    -- the quotes are taken off on both sides of the same gap
    have hstart : (quoted'.start : Int) + 1 = ((quoted.start : Int) + 1) + k := by
      rw [hquoted.eq_moved, OffsetRange.start_moved]
      omega
    have hstop : (quoted'.stop : Int) - 1 = ((quoted.stop : Int) - 1) + k := by
      rw [hquoted.eq_moved, OffsetRange.stop_moved]
      omega
    rw [hstart, hstop]
    obtain ⟨inner, hin, hin'⟩ | ⟨e, he, he'⟩ :=
      OffsetRange.of_add (a := quoted.start + 1) (by omega) ((quoted.stop : Int) - 1) k
    · have hinner : inner.stop ≤ s.text.length := by
        have hle := hquoted.stop_le
        have := (OffsetRange.of_ok_iff.1 hin).2
        omega
      rw [hin, hin']
      dsimp only
      rw [sim.slice inner hinner]
      refine (FolderImport.alike_isSkipped k _ skipped).bind ?_
      rintro isSkipped _ rfl
      split
      · exact .ok .nil
      · exact .ok (FolderImport.moves_report k inner _)
    · rw [he, he']
      exact .error (.range e)

/-! ### The rule about handlers -/

theorem HandlerName.rel_calledName? (h : R n n') :
    Option.Rel R (HandlerName.calledName? n) (HandlerName.calledName? n') := by
  unfold HandlerName.calledName?
  rw [sim.kind h]
  split
  · exact sim.child? h "property"
  · exact .some h

theorem HandlerName.rel_nameOf? (h : R n n') :
    Option.Rel R (HandlerName.nameOf? n) (HandlerName.nameOf? n') := by
  have hcalled : ∀ a b, R a b →
      Option.Rel R (HandlerName.calledName? a) (HandlerName.calledName? b) :=
    fun _ _ => HandlerName.rel_calledName? sim
  have hfunction := (sim.child? h "value").any_eq
    fun a b hab => sim.isAny hab HandlerName.functionValueKinds
  unfold HandlerName.nameOf?
  rw [sim.isAny h, sim.kind h, hfunction]
  split
  · exact sim.child? h "name"
  · split
    · exact (sim.child? h "function").bind hcalled
    · split
      · exact (sim.child? h "constructor").bind hcalled
      · split
        · split
          · exact sim.child? h "key"
          · exact .none
        · exact .none

theorem HandlerName.forall₂_names (h : R n n') :
    List.Forall₂ R (HandlerName.names n) (HandlerName.names n') := by
  have hfound := (sim.walk h).filterMap (fun _ _ => HandlerName.rel_nameOf? sim)
    fun _ => HandlerName.nameOf?_aside
  refine (Padded.of_forall₂ (P := fun _ => False) hfound).filter ?_ fun _ => False.elim
  intro a b hab
  exact sim.isAny hab _

/-- Pairs of bytes that belong to nodes that correspond. -/
def SameBytes (R : Node → Node → Prop) (b b' : Int × Int) : Prop :=
  ∃ n n', R n n' ∧ b = n.bytes ∧ b' = n'.bytes

/-- Findings over nodes that correspond, the second moved. -/
structure HandlerName.Finding.Moves (k : Nat) (R : Node → Node → Prop) (f f' : Finding) : Prop where
  bytes : SameBytes R f.bytes f'.bytes
  range : f'.range = f.range.moved k

theorem HandlerName.alike_check (stem : Option Text) (h : R n n') :
    Alike k (List.Forall₂ (HandlerName.Finding.Moves k R)) (HandlerName.check s stem n)
      (HandlerName.check s' stem n') := by
  unfold HandlerName.check
  refine (sim.span h).bind fun r r' hr => ?_
  rw [hr.eq_moved, sim.slice r hr.stop_le]
  split
  · exact .ok (.cons ⟨⟨n, n', h, rfl, rfl⟩, rfl⟩ .nil)
  · exact .ok .nil

theorem contains_eq_of_sameBytes {met met' : List (Int × Int)} {b b' : Int × Int}
    (hmet : List.Forall₂ (SameBytes R) met met') (hb : SameBytes R b b') :
    met'.contains b' = met.contains b := by
  induction hmet with
  | nil => rfl
  | cons head _ ih =>
    obtain ⟨n, n', hn, rfl, rfl⟩ := hb
    obtain ⟨m, m', hm, rfl, rfl⟩ := head
    rw [List.contains_cons, List.contains_cons, ih]
    congr 1
    rw [Bool.eq_iff_iff, beq_iff_eq, beq_iff_eq]
    exact sim.bytes hn hm

/-- Bytes met before on one side were met before on the other. -/
theorem HandlerName.moves_firsts {met met' : List (Int × Int)} {found found' : List Finding}
    (hmet : List.Forall₂ (SameBytes R) met met')
    (h : List.Forall₂ (HandlerName.Finding.Moves k R) found found') :
    List.Forall₂ (HandlerName.Finding.Moves k R) (HandlerName.firsts met found)
      (HandlerName.firsts met' found') := by
  induction h generalizing met met' with
  | nil => exact .nil
  | cons head _ ih =>
    rw [HandlerName.firsts, HandlerName.firsts, contains_eq_of_sameBytes sim hmet head.bytes]
    split
    · exact ih hmet
    · exact .cons head (ih (.cons head.bytes hmet))

/-! ### All of them -/

theorem FolderImport.visit_rule (o : Options) :
    FolderImport.rule.visit s' o = (FolderImport.rule.visit s o).moved k := by
  apply Rule.visit_ofOutputs_eq_moved
  rw [sim.tree.isNone_eq]
  split
  · exact ⟨.nil, rfl⟩
  · split
    · rename_i e he
      rw [FolderImport.eq_option_of_suffixes he]
      exact ⟨.nil, rfl⟩
    · exact sim.each sim.walk (fun _ _ => FolderImport.alike_check sim _)
        fun _ => FolderImport.check_aside _

theorem HandlerName.alike_outputs (stem : Option Text) :
    Run.Alike k (Output.Moves k) (HandlerName.outputs s stem) (HandlerName.outputs s' stem) := by
  have hrun : Run.Alike k (HandlerName.Finding.Moves k R)
      (s.each HandlerName.names (HandlerName.check s stem))
      (s'.each HandlerName.names (HandlerName.check s' stem)) :=
    sim.each (P := fun _ => False) (fun h => .of_forall₂ (HandlerName.forall₂_names sim h))
      (fun _ _ => HandlerName.alike_check sim _) fun _ => False.elim
  refine ⟨?_, hrun.failure⟩
  have hfirsts := HandlerName.moves_firsts sim .nil hrun.results
  refine List.forall₂_map_left_iff.2 (List.forall₂_map_right_iff.2 (hfirsts.imp ?_))
  intro f f' hf
  rw [hf.range]
  exact RuleInfo.moves_diagnostic _ _ rfl rfl

theorem HandlerName.visit_rule (o : Options) :
    HandlerName.rule.visit s' o = (HandlerName.rule.visit s o).moved k := by
  apply Rule.visit_ofOutputs_eq_moved
  rw [sim.tree.isNone_eq]
  split
  · exact ⟨.nil, rfl⟩
  · split
    · rename_i e he
      rw [HandlerName.eq_longNumber_of_stem he]
      exact ⟨.nil, rfl⟩
    · exact HandlerName.alike_outputs sim _

/-- **Rules follow the text.** On sources that correspond, every built-in rule yields the same
sequence of outputs and ends alike, with all offsets moved. -/
theorem Simulation.visit_builtIn :
    ∀ rule ∈ builtInRules, ∀ o, rule.visit s' o = (rule.visit s o).moved k := by
  simp only [builtInRules, List.forall_mem_cons]
  refine ⟨?_, ?_, ?_, FolderImport.visit_rule sim, HandlerName.visit_rule sim, ?_, ?_, ?_, by simp⟩
  · intro o
    exact Rule.visit_ofOutputs_eq_moved (sim.each sim.walk (fun _ _ => NoAny.alike_check sim)
      fun _ => NoAny.check_aside)
  · intro o
    exact Rule.visit_ofOutputs_eq_moved (sim.each sim.walk
      (fun _ _ => MissingReturnType.alike_check sim _) fun _ => MissingReturnType.check_aside _)
  · intro o
    exact Rule.visit_ofOutputs_eq_moved (sim.each sim.walkWithParent
      (fun _ _ h => AnyReturnType.alike_check sim h.1 h.2)
      fun _ => AnyReturnType.check_aside _)
  · intro o
    exact Rule.visit_ofOutputs_eq_moved (sim.each sim.walk
      (fun _ _ => SwitchDefault.alike_check sim) fun _ => SwitchDefault.check_aside)
  · intro o
    exact Rule.visit_ofOutputs_eq_moved (sim.each sim.walk
      (fun _ _ => DuplicateCase.alike_check sim) fun _ => DuplicateCase.check_aside)
  · intro o
    exact Rule.visit_ofOutputs_eq_moved (sim.each sim.walk
      (fun _ _ => ListKey.alike_check sim _) fun _ => ListKey.check_aside _)

end

end TreeLint
