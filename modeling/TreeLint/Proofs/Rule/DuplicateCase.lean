import Mathlib.Data.List.Induction
import TreeLint.Proofs.List.Selection
import TreeLint.Proofs.Rule.OrderedVisit

/-!
# Which cases of a switch repeat

The rule about duplicate cases groups the conditions of a switch by their text and reports the
groups of two or more. Said without groups: of the texts of the conditions, it reports the places
whose text stands at another place of the same switch too (`IsRepeat`), first by where that text
stands first, then by the place itself (`GroupedBefore`).

* `listsPlaces_repeatPlaces` — the groups one after the other list these places;
* `repeated_eq_pick` — the rule reports the conditions at them;
* `visit_repeats` — so a visit reports, switch by switch, what repeats in the switch itself, and
  never a condition alone.
-/

namespace TreeLint

namespace DuplicateCase

/-! ### Texts that stand at two places -/

/-- The text at a place stands at another place too. -/
def IsRepeat (texts : List Text) (i : Nat) : Prop :=
  ∃ u, texts[i]? = some u ∧ ∃ j, j ≠ i ∧ texts[j]? = some u

/-- The first place of the text that stands at a place. -/
def firstPlace (texts : List Text) (i : Nat) : Nat := texts.idxOf (texts.getD i [])

/-- Places by the first place of their text, then by themselves. -/
def GroupedBefore (texts : List Text) (i j : Nat) : Prop :=
  firstPlace texts i < firstPlace texts j ∨ firstPlace texts i = firstPlace texts j ∧ i < j

/-- The places of the texts that stand at two places or more, text by text. -/
def repeatPlaces (texts : List Text) : List Nat :=
  texts.eraseDups.flatMap fun u => if texts.count u < 2 then [] else texts.idxsOf u

section

variable {texts : List Text} {u : Text} {i : Nat}

theorem mem_idxsOf_iff : i ∈ texts.idxsOf u ↔ texts[i]? = some u := by
  rw [List.mem_idxsOf_iff_exists_getElem_pos, List.getElem?_eq_some_iff]
  simp only [beq_iff_eq]

theorem firstPlace_of_mem (h : i ∈ texts.idxsOf u) : firstPlace texts i = texts.idxOf u := by
  rw [firstPlace, List.getD_eq_getElem?_getD, mem_idxsOf_iff.1 h, Option.getD_some]

/-- Without duplicates, the texts stand in the order of their first places. -/
theorem pairwise_idxOf_eraseDups (texts : List Text) :
    texts.eraseDups.Pairwise fun u v => texts.idxOf u < texts.idxOf v := by
  induction texts using List.reverseRecOn with
  | nil => exact List.Pairwise.nil
  | append_singleton texts w ih =>
    have hold : ∀ u ∈ texts.eraseDups, (texts ++ [w]).idxOf u = texts.idxOf u := by
      intro u hu
      exact List.idxOf_append_of_mem (List.mem_eraseDups.1 hu)
    have hfront : texts.eraseDups.Pairwise fun u v =>
        (texts ++ [w]).idxOf u < (texts ++ [w]).idxOf v := by
      refine ih.imp_of_mem ?_
      intro u v hu hv huv
      rw [hold u hu, hold v hv]
      exact huv
    rw [List.eraseDups_append, List.pairwise_append]
    by_cases hw : w ∈ texts
    · simp [List.removeAll, hw, hfront]
    · refine ⟨hfront, by simp [List.removeAll, hw, List.eraseDups_cons], ?_⟩
      intro u hu v hv
      obtain rfl : v = w := by
        simpa [List.removeAll, hw] using hv
      rw [hold u hu, List.idxOf_append_of_notMem hw]
      have := List.idxOf_lt_length_of_mem (List.mem_eraseDups.1 hu)
      omega

/-- A text is counted twice exactly if it stands at a second place. -/
theorem isRepeat_iff_of_mem (h : i ∈ texts.idxsOf u) : IsRepeat texts i ↔ 2 ≤ texts.count u := by
  have hother : IsRepeat texts i ↔ ∃ j ∈ texts.idxsOf u, j ≠ i := by
    simp only [IsRepeat, mem_idxsOf_iff.1 h, Option.some.injEq, exists_eq_left', mem_idxsOf_iff,
      and_comm]
  have hnodup : (texts.idxsOf u).Nodup := List.nodup_idxsOf
  rw [hother, ← List.length_idxsOf (s := 0)]
  generalize texts.idxsOf u = group at h hnodup
  match group, h, hnodup with
  | [a], h, _ =>
    obtain rfl : i = a := List.mem_singleton.1 h
    simp
  | a :: b :: rest, _, hnodup =>
    have hab : a ≠ b := (List.nodup_cons.1 hnodup).1 ∘ (· ▸ List.mem_cons_self)
    refine iff_of_true ?_ (by simp)
    by_cases hi : i = a
    · exact ⟨b, by simp, fun hb => hab (hi ▸ hb.symm)⟩
    · exact ⟨a, by simp, Ne.symm hi⟩

theorem mem_repeatPlaces : i ∈ repeatPlaces texts ↔ IsRepeat texts i := by
  rw [repeatPlaces, List.mem_flatMap]
  constructor
  · rintro ⟨u, -, hi⟩
    split at hi
    · cases hi
    · rw [isRepeat_iff_of_mem hi]
      omega
  · intro h
    obtain ⟨u, hu, -⟩ := id h
    have hi := mem_idxsOf_iff.2 hu
    have hcount := (isRepeat_iff_of_mem hi).1 h
    refine ⟨u, List.mem_eraseDups.2 (List.mem_of_getElem? hu), ?_⟩
    rw [if_neg (by omega)]
    exact hi

theorem pairwise_repeatPlaces (texts : List Text) :
    (repeatPlaces texts).Pairwise (GroupedBefore texts) := by
  rw [repeatPlaces, List.pairwise_flatMap]
  constructor
  · intro u _
    split
    · exact List.Pairwise.nil
    · refine List.pairwise_idxsOf.imp_of_mem ?_
      intro i j hi hj hij
      exact Or.inr ⟨by rw [firstPlace_of_mem hi, firstPlace_of_mem hj], hij⟩
  · refine (pairwise_idxOf_eraseDups texts).imp ?_
    intro u v huv i hi j hj
    split at hi
    · cases hi
    · split at hj
      · cases hj
      · left
        rw [firstPlace_of_mem hi, firstPlace_of_mem hj]
        exact huv

/-- **The groups list what repeats.** -/
theorem listsPlaces_repeatPlaces (texts : List Text) :
    ListsPlaces (IsRepeat texts) (GroupedBefore texts) (repeatPlaces texts) :=
  ⟨fun _ => mem_repeatPlaces, pairwise_repeatPlaces texts⟩

/-- What repeats, repeats somewhere: there is no single place. -/
theorem length_repeatPlaces_ne_one (texts : List Text) : (repeatPlaces texts).length ≠ 1 := by
  intro hone
  obtain ⟨i, hi⟩ := List.length_eq_one_iff.1 hone
  have hmem : ∀ j, IsRepeat texts j ↔ j = i := by
    intro j
    rw [← mem_repeatPlaces, hi, List.mem_singleton]
  obtain ⟨u, hu, j, hne, hj⟩ := (hmem i).2 rfl
  exact hne ((hmem j).1 ⟨u, hj, i, Ne.symm hne, hu⟩)

theorem lt_length_of_isRepeat (h : IsRepeat texts i) : i < texts.length := by
  obtain ⟨u, hu, -⟩ := h
  exact (List.getElem?_eq_some_iff.1 hu).1

theorem repeatPlaces_of_nodup (h : texts.Nodup) : repeatPlaces texts = [] := by
  rw [List.eq_nil_iff_forall_not_mem]
  intro i hi
  obtain ⟨u, hu, j, hne, hj⟩ := mem_repeatPlaces.1 hi
  have hlt := (List.getElem?_eq_some_iff.1 hj).1
  exact hne ((List.getElem?_inj hlt h).1 (hj.trans hu.symm))

end

/-! ### What a switch reports -/

/-- The conditions of the cases of a switch: the values of the clauses that stand in its body
itself. -/
def caseValues (n : Node) : List Node :=
  (((n.child? "body").toList.flatMap Node.children).filter fun clause =>
    clause.kind == "switch_case" && clause.label.named).filterMap (·.child? "value")

/-- The texts of these conditions. -/
def caseTexts (t : Text) (n : Node) : List Text := (caseValues n).map (·.textIn t)

/-- The report of a condition, over the condition and with its text. -/
def report (t : Text) (c : Node) : Output := info.diagnostic (c.rangeIn t) (message (c.textIn t))

/-- What a switch reports: its conditions whose text repeats. -/
def reports (t : Text) (n : Node) : List Output :=
  (pick (caseValues n) (repeatPlaces (caseTexts t n))).map (report t)

theorem conditions_eq_caseValues {n : Node} (h : n.kind = "switch_statement") :
    conditions n = caseValues n := by
  rw [conditions, if_pos h, caseValues]
  cases n.child? "body" with
  | none => rfl
  | some body => simp [Node.namedChildren, List.filter_filter]

theorem conditions_eq_nil {n : Node} (h : n.kind ≠ "switch_statement") : conditions n = [] := by
  rw [conditions, if_neg h]

/-- The rule picks the conditions at the places of what repeats. -/
theorem repeated_eq_pick (keyed : List (Text × OffsetRange)) :
    repeated keyed = pick keyed (repeatPlaces (keyed.map Prod.fst)) := by
  rw [repeated, repeatPlaces, pick_flatMap]
  congr 1
  funext key
  have hcount : (keyed.map Prod.fst).count key = (keyed.filter (·.1 == key)).length := by
    rw [List.count, List.countP_map, List.countP_eq_length_filter]
    rfl
  dsimp only
  rw [hcount]
  split
  · rfl
  · rw [List.idxsOf_map, ← filter_eq_pick]

theorem check_eq {s : Source} {n : Node} (h : ∀ c ∈ conditions n, c.Ordered) :
    check s n = .ok ((pick (conditions n)
      (repeatPlaces ((conditions n).map (·.textIn s.text)))).map (report s.text)) := by
  have hranges : (conditions n).mapM s.span = .ok ((conditions n).map (·.rangeIn s.text)) :=
    mapM_eq_ok fun c hc => Source.span_eq_rangeIn (h c hc).bytes_le
  rw [check, hranges]
  show Except.ok _ = _
  rw [repeated_eq_pick, List.map_map, List.map_map, pick_map, List.map_map]
  rfl

theorem check_eq_reports {s : Source} {n : Node} (hordered : ∀ c ∈ conditions n, c.Ordered) :
    check s n = .ok (if n.kind = "switch_statement" then reports s.text n else []) := by
  rw [check_eq hordered]
  split
  · rename_i hkind
    rw [conditions_eq_caseValues hkind]
    rfl
  · rename_i hkind
    rw [conditions_eq_nil hkind]
    rfl

variable {s : Source} {root : Node}

theorem visit_eq_reports (hroot : s.tree = some (.rooted root)) (h : root.Ordered) (o : Options) :
    rule.visit s o =
      ⟨((root.walk.filter (·.kind == "switch_statement")).flatMap (reports s.text)).map .output,
        none⟩ := by
  have sim := simulation_ordered (Source.ordered_of_root hroot h)
  have hchecks : ∀ n ∈ root.walk,
      check s n = .ok (if n.kind = "switch_statement" then reports s.text n else []) := by
    intro n hn
    exact check_eq_reports (Node.Self.of_forall₂ (forall₂_conditions sim ⟨rfl, h.of_mem_walk hn⟩))
  exact Rule.visit_eq_flatMap hroot hchecks

/-- **What repeats in a switch is reported.** In a tree whose nodes start before they end, the rule
reports, switch by switch in source order, the conditions of the switch whose text is also that of
another one of its conditions: each of them once, over itself and with its text, by the first place
of the text and then by its own. So a switch never reports a single condition, and where no switch
repeats a text of its own, nothing is reported. -/
theorem visit_repeats (hroot : s.tree = some (.rooted root)) (h : root.Ordered) (o : Options) :
    rule.visit s o =
      ⟨((root.walk.filter (·.kind == "switch_statement")).flatMap fun n =>
        (pick (caseValues n) (repeatPlaces (caseTexts s.text n))).map fun c =>
          info.diagnostic (c.rangeIn s.text) (message (c.textIn s.text))).map .output, none⟩ ∧
    (∀ n : Node,
      ListsPlaces (IsRepeat (caseTexts s.text n)) (GroupedBefore (caseTexts s.text n))
        (repeatPlaces (caseTexts s.text n)) ∧
      (pick (caseValues n) (repeatPlaces (caseTexts s.text n))).length ≠ 1) ∧
    ((∀ n ∈ root.walk, n.kind = "switch_statement" → (caseTexts s.text n).Nodup) →
      rule.visit s o = ⟨[], none⟩) := by
  refine ⟨visit_eq_reports hroot h o, ?_, ?_⟩
  · intro n
    refine ⟨listsPlaces_repeatPlaces _, ?_⟩
    rw [length_pick]
    · exact length_repeatPlaces_ne_one _
    · intro i hi
      have hlt := lt_length_of_isRepeat (mem_repeatPlaces.1 hi)
      rwa [caseTexts, List.length_map] at hlt
  · intro hnodup
    have hnone :
        (root.walk.filter (·.kind == "switch_statement")).flatMap (reports s.text) = [] := by
      rw [List.flatMap_eq_nil_iff]
      intro n hn
      obtain ⟨hmem, hkind⟩ := List.mem_filter.1 hn
      rw [reports, repeatPlaces_of_nodup (hnodup n hmem (eq_of_beq hkind))]
      rfl
    rw [visit_eq_reports hroot h o, hnone]
    rfl

/-- A clause of seven bytes with a condition of one. -/
def shortClause (start : Int) (body : List Node) : Node :=
  .mk { kind := "switch_case", named := true, startByte := start, endByte := start + 7 }
    (.mk { kind := "number", named := true, startByte := start + 5, endByte := start + 6,
           field := some "value" } [] :: body)

/-- A switch with its clauses. -/
def switchOver (start stop : Int) (clauses : List Node) : Node :=
  .mk { kind := "switch_statement", named := true, startByte := start, endByte := stop }
    [.mk { kind := "switch_body", named := true, startByte := start, endByte := stop,
           field := some "body" } clauses]

/-- A switch in whose second clause another one stands. -/
def nestedSwitch : Node :=
  switchOver 0 64 [shortClause 10 [], shortClause 17 [switchOver 24 42 [shortClause 34 []]],
    shortClause 42 [], shortClause 49 [], shortClause 56 []]

/-- The text of these switches. -/
def nestedSource : Source where
  kind := "ts"
  text := "switch(x){case 1:case 2:switch(y){case 3:}case 1:case 3:case 2:}".toList
  tree := some (.rooted nestedSwitch)

/-- Both `1` come before both `2`, and the two `3` stand in different switches. -/
theorem nestedSwitch_repeats :
    nestedSwitch.Ordered ∧
    rule.visit nestedSource [] =
      ⟨[.output (info.diagnostic ⟨15, 16, by decide⟩ (message ['1'])),
        .output (info.diagnostic ⟨47, 48, by decide⟩ (message ['1'])),
        .output (info.diagnostic ⟨22, 23, by decide⟩ (message ['2'])),
        .output (info.diagnostic ⟨61, 62, by decide⟩ (message ['2']))], none⟩ := by
  have hordered : nestedSwitch.Ordered := by decide
  refine ⟨hordered, ?_⟩
  rw [(visit_repeats (s := nestedSource) rfl hordered []).1, Node.walk_eq_preorder]
  rfl

end DuplicateCase

end TreeLint
