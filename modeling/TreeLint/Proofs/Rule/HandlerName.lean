import TreeLint.Proofs.List.Selection
import TreeLint.Proofs.Rule.OrderedVisit
import TreeLint.Proofs.Text.Segment

/-!
# Misnamed spans are reported once

The rule about handlers meets the names of a tree one by one and skips those whose bytes it has
reported before. Only reported bytes are remembered, but names with the same bytes read alike, so
what is skipped is exactly what an earlier name has settled: reported are the names that are
misnamed (`Misnamed`) and that no name before them shares its bytes with (`IsFirst`).

* `firsts_eq_pick` — the scan with its memory against the places of these names, for any memory;
* `exists_first` — every misnamed name shares its bytes with one of them;
* `visit_misnamed` — what a visit reports.
-/

namespace TreeLint

/-- The range of a node depends on its bytes alone. -/
theorem Node.rangeIn_eq_of_bytes {c d : Node} (h : c.bytes = d.bytes) (t : Text) :
    c.rangeIn t = d.rangeIn t := by
  obtain ⟨hstart, hend⟩ := Prod.mk.inj h
  simp only [rangeIn, hstart, hend]

theorem Node.textIn_eq_of_bytes {c d : Node} (h : c.bytes = d.bytes) (t : Text) :
    c.textIn t = d.textIn t := by
  rw [textIn, textIn, rangeIn_eq_of_bytes h]

namespace HandlerName

/-- In lower case, the name holds the stem and does not start with it. -/
def Misnamed (stem : Option Text) (name : Text) : Prop :=
  ∃ t ∈ stem, t <:+: Text.lower name ∧ ¬t <+: Text.lower name

theorem isMisnamed_iff {stem : Option Text} {name : Text} :
    isMisnamed stem name = true ↔ Misnamed stem name := by
  rw [isMisnamed, Misnamed, Option.any_eq_true]
  refine exists_congr fun t => and_congr_right fun _ => ?_
  rw [Bool.and_eq_true, Text.holds_iff, Bool.not_eq_true', ← Bool.not_eq_true,
    List.isPrefixOf_iff_prefix]

/-! ### The first name of each span -/

/-- The name at a place passes a test, its bytes are not among those met before, and no name before
it in the list has them. -/
def IsFresh (p : Node → Bool) (met : List (Int × Int)) (names : List Node) (i : Nat) : Prop :=
  ∃ c, names[i]? = some c ∧ p c = true ∧ c.bytes ∉ met ∧ ∀ d ∈ names.take i, d.bytes ≠ c.bytes

/-- What is remembered of a name that passed. -/
def finding (t : Text) (c : Node) : Finding := ⟨c.bytes, c.rangeIn t⟩

section

variable {p : Node → Bool} {met : List (Int × Int)} {c : Node} {rest names : List Node} {i : Nat}

theorem isFresh_zero : IsFresh p met (c :: rest) 0 ↔ p c = true ∧ c.bytes ∉ met := by
  simp [IsFresh]

/-- Behind a name, its bytes count as met. -/
theorem isFresh_succ :
    IsFresh p met (c :: rest) (i + 1) ↔ IsFresh p (c.bytes :: met) rest i := by
  refine exists_congr fun d => ?_
  rw [List.getElem?_cons_succ, List.take_succ_cons, List.forall_mem_cons, List.mem_cons, not_or,
    ne_comm]
  tauto

/-- Bytes need not be remembered if no name that passes and is not met before has them. -/
theorem isFresh_forget {b : Int × Int} (h : ∀ d, p d = true → d.bytes ∉ met → d.bytes ≠ b) :
    IsFresh p (b :: met) names i ↔ IsFresh p met names i := by
  refine exists_congr fun d => and_congr_right fun _ => and_congr_right fun hp => ?_
  refine and_congr_left fun _ => ?_
  rw [List.mem_cons, not_or]
  exact ⟨And.right, fun hmet => ⟨h d hp hmet, hmet⟩⟩

/-- A name that is not fresh leaves the scan as it is. -/
theorem firsts_of_not_fresh (t : Text) (h : ¬(p c = true ∧ c.bytes ∉ met)) :
    firsts met (((c :: rest).filter p).map (finding t)) =
      firsts met ((rest.filter p).map (finding t)) := by
  rw [List.filter_cons]
  by_cases hc : p c = true
  · have hmet : met.contains (finding t c).bytes = true := by
      rw [List.contains_iff_mem]
      exact not_not.1 fun hnew => h ⟨hc, hnew⟩
    rw [if_pos hc, List.map_cons, firsts, if_pos hmet]
  · rw [if_neg hc]

/-- A fresh name is reported, and its bytes are met from then on. -/
theorem firsts_of_fresh (t : Text) (h : p c = true ∧ c.bytes ∉ met) :
    firsts met (((c :: rest).filter p).map (finding t)) =
      finding t c :: firsts (c.bytes :: met) ((rest.filter p).map (finding t)) := by
  have hmet : ¬met.contains (finding t c).bytes = true := by
    rw [List.contains_iff_mem]
    exact h.2
  rw [List.filter_cons, if_pos h.1, List.map_cons, firsts, if_neg hmet]
  rfl

/-- **The scan reports first names.** If the test sees only the bytes of a name, then the findings
without those met before are the findings at the fresh places. -/
theorem firsts_eq_pick (hp : ∀ c d : Node, c.bytes = d.bytes → p c = p d) (t : Text)
    (met : List (Int × Int)) (names : List Node) :
    ∃ places, ListsPlaces (IsFresh p met names) (· < ·) places ∧
      firsts met ((names.filter p).map (finding t)) = (pick names places).map (finding t) := by
  induction names generalizing met with
  | nil => exact ⟨[], ⟨by simp [IsFresh], .nil⟩, rfl⟩
  | cons c rest ih =>
    by_cases hfresh : p c = true ∧ c.bytes ∉ met
    · obtain ⟨places, hplaces, hpick⟩ := ih (c.bytes :: met)
      refine ⟨0 :: places.map (· + 1),
        hplaces.zero_succ (fun _ => isFresh_succ) (isFresh_zero.2 hfresh), ?_⟩
      rw [firsts_of_fresh t hfresh, hpick, ← pick_cons_succ c]
      rfl
    · obtain ⟨places, hplaces, hpick⟩ := ih met
      -- a later name with the same bytes fails the test as well, or was met before as well
      have hforget : ∀ d : Node, p d = true → d.bytes ∉ met → d.bytes ≠ c.bytes := by
        intro d hd hmet hbytes
        exact hfresh ⟨hp d c hbytes ▸ hd, hbytes ▸ hmet⟩
      refine ⟨places.map (· + 1), hplaces.succ (fun _ => ?_) (isFresh_zero.not.2 hfresh), ?_⟩
      · rw [isFresh_succ, isFresh_forget hforget]
      · rw [firsts_of_not_fresh t hfresh, hpick, pick_cons_succ]

/-- The bytes of a name belong to some name of the list for the first time. -/
theorem exists_first (hc : c ∈ names) :
    ∃ i r, names[i]? = some r ∧ r.bytes = c.bytes ∧ ∀ d ∈ names.take i, d.bytes ≠ r.bytes := by
  have hsome : (names.find? (·.bytes == c.bytes)).isSome = true :=
    List.find?_isSome.2 ⟨c, hc, beq_self_eq_true c.bytes⟩
  obtain ⟨r, hr⟩ := Option.isSome_iff_exists.1 hsome
  obtain ⟨hbytes, front, back, rfl, hfront⟩ := List.find?_eq_some_iff_append.1 hr
  refine ⟨front.length, r, by simp, eq_of_beq hbytes, ?_⟩
  intro d hd hsame
  rw [List.take_left] at hd
  have hne := hfront d hd
  rw [hsame, hbytes] at hne
  cases hne

end

/-! ### Visits -/

/-- The name at a place is misnamed, and no name before it has its bytes. -/
def IsFirst (t : Text) (stem : Option Text) (names : List Node) (i : Nat) : Prop :=
  ∃ c, names[i]? = some c ∧ Misnamed stem (c.textIn t) ∧ ∀ d ∈ names.take i, d.bytes ≠ c.bytes

section

variable {t : Text} {stem : Option Text} {names : List Node} {places : List Nat}

theorem isFresh_iff_isFirst {i : Nat} :
    IsFresh (fun c => isMisnamed stem (c.textIn t)) [] names i ↔ IsFirst t stem names i := by
  simp only [IsFresh, IsFirst, isMisnamed_iff, List.not_mem_nil, not_false_iff, true_and]

variable (h : ListsPlaces (IsFirst t stem names) (· < ·) places)

include h

/-- The first names of all spans give the bytes of all misnamed names. -/
theorem mem_bytes_pick_iff {b : Int × Int} :
    b ∈ (pick names places).map Node.bytes ↔
      ∃ c ∈ names, c.bytes = b ∧ Misnamed stem (c.textIn t) := by
  rw [List.mem_map]
  constructor
  · rintro ⟨r, hr, rfl⟩
    obtain ⟨i, hi, hri⟩ := mem_pick.1 hr
    obtain ⟨c, hc, hmis, -⟩ := (h.mem_iff i).1 hi
    rw [hri, Option.some.injEq] at hc
    subst hc
    exact ⟨r, List.mem_of_getElem? hri, rfl, hmis⟩
  · rintro ⟨c, hc, rfl, hmis⟩
    obtain ⟨i, r, hr, hbytes, hfirst⟩ := exists_first hc
    rw [← Node.textIn_eq_of_bytes hbytes] at hmis
    exact ⟨r, mem_pick.2 ⟨i, (h.mem_iff i).2 ⟨r, hr, hmis, hfirst⟩, hr⟩, hbytes⟩

/-- First names have different bytes. -/
theorem pairwise_bytes_pick : (pick names places).Pairwise fun c d => c.bytes ≠ d.bytes := by
  rw [pick, List.pairwise_filterMap]
  refine h.ordered.imp_of_mem ?_
  intro i j _ hj hij c hc d hd
  obtain ⟨d', hd', -, hfirst⟩ := (h.mem_iff j).1 hj
  rw [hd, Option.some.injEq] at hd'
  subst hd'
  exact hfirst c (List.mem_of_getElem? ((List.getElem?_take_of_lt hij).trans hc))

end

variable {s : Source} {root : Node} {o : Options}

theorem check_eq (stem : Option Text) {c : Node} (h : c.Ordered) :
    check s stem c =
      .ok (if isMisnamed stem (c.textIn s.text) then [finding s.text c] else []) := by
  rw [check, Source.span_eq_rangeIn h.bytes_le]
  show (if isMisnamed stem (c.textIn s.text) = true then _ else _) = _
  split <;> rfl

theorem ordered_of_mem_names (hroot : s.tree = some (.rooted root)) (h : root.Ordered) :
    ∀ c ∈ names root, c.Ordered := by
  have sim := simulation_ordered (Source.ordered_of_root hroot h)
  exact Node.Self.of_forall₂ (forall₂_names sim ⟨rfl, h⟩)

/-- What a visit reports for a stem, name by name. -/
theorem outputs_eq_firsts (hroot : s.tree = some (.rooted root)) (h : root.Ordered)
    (stem : Option Text) :
    outputs s stem =
      ⟨(firsts [] (((names root).filter fun c => isMisnamed stem (c.textIn s.text)).map
          (finding s.text))).map fun f => info.diagnostic f.range (message (stem.getD [])),
        none⟩ := by
  have hchecks := fun c hc => check_eq (s := s) stem (ordered_of_mem_names hroot h c hc)
  rw [outputs, Source.each_eq hroot, Run.each_eq_flatMap hchecks]
  have hfound : ((names root).filter fun c => isMisnamed stem (c.textIn s.text)).map
      (finding s.text) = (names root).flatMap fun c =>
        if isMisnamed stem (c.textIn s.text) then [finding s.text c] else [] := by
    rw [← List.flatMap_pure_eq_map]
    refine flatMap_filter_eq ?_ ?_
    · intro c _ hc
      rw [if_pos hc]
      rfl
    · intro c _ hc
      rw [hc]
      rfl
  rw [hfound]
  rfl

/-- Names that start and end at characters have the same range only if they have the same bytes. -/
theorem bytes_eq_of_rangeIn {c d : Node} (hc : c.Ordered) (hd : d.Ordered)
    (hcb : s.text.IsBoundary c.label.startByte ∧ s.text.IsBoundary c.label.endByte)
    (hdb : s.text.IsBoundary d.label.startByte ∧ s.text.IsBoundary d.label.endByte)
    (h : c.rangeIn s.text = d.rangeIn s.text) : c.bytes = d.bytes := by
  have hspan : s.span c = s.span d := by
    rw [Source.span_eq_rangeIn hc.bytes_le, Source.span_eq_rangeIn hd.bytes_le, h]
  obtain ⟨hstart, hend⟩ := (Source.span_eq_span_iff (s.startOf_le_stopOf hc.bytes_le)
    (s.startOf_le_stopOf hd.bytes_le) hcb.1 hcb.2 hdb.1 hdb.2).1 hspan
  rw [Node.bytes, Node.bytes, hstart, hend]

/-- **Every misnamed span is reported once.** In a tree whose nodes start before they end, the rule
fails before the first name if the stem has no text because a number in it is too long. Otherwise it
comes to its end and reports the names of the tree that hold the stem in lower case without starting
with it and whose bytes no earlier name has, in the order of the nodes that they name. The bytes of
these names are those of all misnamed names, each once. Where names start and end at characters, no
two reports have the same range. -/
theorem visit_misnamed (hroot : s.tree = some (.rooted root)) (h : root.Ordered) (o : Options) :
    (∀ e, stem o = .error e → rule.visit s o = ⟨[], some e⟩) ∧
    ∀ stem', stem o = .ok stem' →
      ∃ places, ListsPlaces (IsFirst s.text stem' (names root)) (· < ·) places ∧
        rule.visit s o =
          ⟨(pick (names root) places).map fun c =>
            .output (info.diagnostic (c.rangeIn s.text) (message (stem'.getD []))), none⟩ ∧
        (∀ b, b ∈ (pick (names root) places).map Node.bytes ↔
          ∃ c ∈ names root, c.bytes = b ∧ Misnamed stem' (c.textIn s.text)) ∧
        ((pick (names root) places).map Node.bytes).Nodup ∧
        ((∀ c ∈ names root,
            s.text.IsBoundary c.label.startByte ∧ s.text.IsBoundary c.label.endByte) →
          ((pick (names root) places).map (·.rangeIn s.text)).Nodup) := by
  refine ⟨fun e he => ?_, fun stem' hstem => ?_⟩
  · rw [visit_eq hroot, he]
    rfl
  have hbytes : ∀ c d : Node, c.bytes = d.bytes →
      isMisnamed stem' (c.textIn s.text) = isMisnamed stem' (d.textIn s.text) := by
    intro c d hcd
    rw [Node.textIn_eq_of_bytes hcd]
  obtain ⟨places, hfresh, hpick⟩ := firsts_eq_pick hbytes s.text [] (names root)
  have hplaces : ListsPlaces (IsFirst s.text stem' (names root)) (· < ·) places :=
    ⟨fun i => (hfresh.mem_iff i).trans isFresh_iff_isFirst, hfresh.ordered⟩
  have hpairwise := pairwise_bytes_pick hplaces
  refine ⟨places, hplaces, ?_, fun b => mem_bytes_pick_iff hplaces, ?_, ?_⟩
  · rw [visit_eq hroot, hstem]
    simp only [outputs_eq_firsts hroot h, Run.mapResults, hpick, List.map_map]
    rfl
  · rw [List.Nodup, List.pairwise_map]
    exact hpairwise
  · intro hboundary
    have hmem : ∀ c ∈ pick (names root) places, c ∈ names root := by
      intro c hc
      obtain ⟨i, -, hi⟩ := mem_pick.1 hc
      exact List.mem_of_getElem? hi
    rw [List.Nodup, List.pairwise_map]
    refine hpairwise.imp_of_mem ?_
    intro c d hc hd hne hrange
    exact hne (bytes_eq_of_rangeIn (ordered_of_mem_names hroot h c (hmem c hc))
      (ordered_of_mem_names hroot h d (hmem d hd)) (hboundary c (hmem c hc))
      (hboundary d (hmem d hd)) hrange)

/-- A call of a name. -/
def callOf (start stop : Int) : Node :=
  .mk { kind := "call_expression", named := true, startByte := start, endByte := stop + 2 }
    [.mk { kind := "identifier", named := true, startByte := start, endByte := stop,
           field := some "function" } []]

/-- Four calls, of which the first two are of one and the same name. -/
def handlerCalls : Node :=
  .mk { kind := "program", named := true, startByte := 0, endByte := 34 }
    [callOf 3 11, callOf 3 11, callOf 14 21, callOf 24 32]

/-- The text of these calls, behind a character of two bytes. -/
def handlerSource : Source where
  kind := "ts"
  text := "é=onHandle();handleX();ONHANDLE()".toList
  tree := some (.rooted handlerCalls)

/-- A stem that is a number of too many digits. -/
def longStem : Options := [(.str "prefix", .int (Nat.pow 10 4300))]

/-- The name that is met twice is reported once, and the name in capitals like the one without.
With a number that cannot be shown as the stem, the rule fails. -/
theorem handlerCalls_reported :
    handlerCalls.Ordered ∧
    (∀ c ∈ names handlerCalls, handlerSource.text.IsBoundary c.label.startByte ∧
      handlerSource.text.IsBoundary c.label.endByte) ∧
    rule.visit handlerSource longStem = ⟨[], some .longNumber⟩ ∧
    ∃ reported : List Node,
      rule.visit handlerSource [] =
        ⟨[.output (info.diagnostic ⟨2, 10, by decide⟩ (message "handle".toList)),
          .output (info.diagnostic ⟨23, 31, by decide⟩ (message "handle".toList))], none⟩ ∧
      rule.visit handlerSource [] =
        ⟨reported.map fun c => .output (info.diagnostic (c.rangeIn handlerSource.text)
          (message "handle".toList)), none⟩ ∧
      (reported.map (·.rangeIn handlerSource.text)).Nodup := by
  have hordered : handlerCalls.Ordered := by decide
  have hboundary : ∀ c ∈ names handlerCalls, handlerSource.text.IsBoundary c.label.startByte ∧
      handlerSource.text.IsBoundary c.label.endByte := by
    rw [names, Node.walk_eq_preorder]
    decide
  have hlong : stem longStem = .error .longNumber := by decide +kernel
  have hstem : stem [] = .ok (some "handle".toList) := rfl
  have hvisit : rule.visit handlerSource [] =
      ⟨[.output (info.diagnostic ⟨2, 10, by decide⟩ (message "handle".toList)),
        .output (info.diagnostic ⟨23, 31, by decide⟩ (message "handle".toList))], none⟩ := by
    show Run.mapResults _ (Run.mapResults _ (Run.each (check _ _) (names _))) = _
    rw [names, Node.walk_eq_preorder]
    rfl
  obtain ⟨hfails, -⟩ := visit_misnamed (s := handlerSource) rfl hordered longStem
  obtain ⟨-, hreports⟩ := visit_misnamed (s := handlerSource) rfl hordered []
  obtain ⟨places, -, hpick, -, -, hranges⟩ := hreports _ hstem
  exact ⟨hordered, hboundary, hfails _ hlong, pick (names handlerCalls) places, hvisit, hpick,
    hranges hboundary⟩

end HandlerName

end TreeLint
