import TreeLint.Registry

/-!
# Registries and the lists they come from

A registry keeps a list of rules and an index by id. The two are kept in step
(`Registry.InStep`): the index holds the rules of the list, each under its id and in the same order.
So a list of rules with distinct ids is registered as it stands (`rules_ofRules`), the ids of a
registry are always distinct (`Arises.nodup_ids`), and not registering the rules of one id takes
just the rule of that id out of the list (`rules_ofRules_without`).
-/

namespace TreeLint

namespace Registry

/-- The index holds the rules of the list under their ids, in the same order. -/
def InStep (r : Registry) : Prop := r.index = r.rules.map fun rule => (rule.id, rule)

section

variable {r : Registry} {rule : Rule}

theorem inStep_empty : InStep {} := rfl

theorem InStep.ids_eq (h : r.InStep) : r.ids = r.rules.map Rule.id := by
  rw [ids, h, List.map_map]
  rfl

/-- Looking an id up in the index finds the first rule of the list that has it. -/
theorem InStep.get?_eq (h : r.InStep) (id : String) :
    r.get? id = r.rules.find? fun rule => rule.id == id := by
  have hlookup : ∀ rules : List Rule, (rules.map fun rule => (rule.id, rule)).lookup id =
      rules.find? fun rule => rule.id == id := by
    intro rules
    induction rules with
    | nil => rfl
    | cons rule rest ih =>
      rw [List.map_cons, List.lookup_cons, List.find?_cons, ih, BEq.comm (a := id)]
  rw [get?, h, hlookup]

/-- A rule whose id is taken changes nothing. -/
theorem register_of_mem (hid : rule.id ∈ r.ids) : r.register rule = r := by
  rw [register, if_pos (List.contains_iff_mem.2 hid)]

theorem register_of_not_mem (hid : rule.id ∉ r.ids) :
    r.register rule = ⟨r.rules ++ [rule], r.index ++ [(rule.id, rule)]⟩ := by
  rw [register, if_neg fun hc => hid (List.contains_iff_mem.1 hc)]

theorem rules_register_of_not_mem (hid : rule.id ∉ r.ids) :
    (r.register rule).rules = r.rules ++ [rule] := by
  rw [register_of_not_mem hid]

theorem ids_register_of_not_mem (hid : rule.id ∉ r.ids) :
    (r.register rule).ids = r.ids ++ [rule.id] := by
  rw [register_of_not_mem hid, ids, List.map_append]
  rfl

/-- Registering keeps the list and the index in step. -/
theorem InStep.register (h : r.InStep) (rule : Rule) : (r.register rule).InStep := by
  by_cases hid : rule.id ∈ r.ids
  · rw [register_of_mem hid]
    exact h
  · rw [register_of_not_mem hid, InStep, h, List.map_append]
    rfl

/-- Registering never brings in an id a second time. -/
theorem nodup_ids_register (hids : r.ids.Nodup) (rule : Rule) : (r.register rule).ids.Nodup := by
  by_cases hid : rule.id ∈ r.ids
  · rw [register_of_mem hid]
    exact hids
  · rw [ids_register_of_not_mem hid]
    exact List.nodup_append.2 ⟨hids, by simp, by
      rintro a ha b hb rfl
      exact hid (List.mem_singleton.1 hb ▸ ha)⟩

end

/-! ### What holds of every registry -/

/-- The registries that come about: the empty one, and what registering and clearing make of
one. -/
inductive Arises : Registry → Prop where
  | empty : Arises {}
  | register {r : Registry} (h : Arises r) (rule : Rule) : Arises (r.register rule)
  | clear {r : Registry} (h : Arises r) : Arises r.clear

namespace Arises

theorem foldl_register (rules : List Rule) {r : Registry} (h : r.Arises) :
    (rules.foldl Registry.register r).Arises := by
  induction rules generalizing r with
  | nil => exact h
  | cons rule rest ih => exact ih (h.register rule)

/-- A list of rules makes a registry. -/
theorem ofRules (rules : List Rule) : (ofRules rules).Arises := foldl_register rules .empty

theorem inStep {r : Registry} (h : r.Arises) : r.InStep := by
  induction h with
  | empty => exact inStep_empty
  | register _ rule ih => exact ih.register rule
  | clear _ _ => exact inStep_empty

/-- A registry never holds two rules of one id. -/
theorem nodup_ids {r : Registry} (h : r.Arises) : (r.rules.map Rule.id).Nodup := by
  have hids : r.ids.Nodup := by
    induction h with
    | empty => exact List.nodup_nil
    | register _ rule ih => exact nodup_ids_register ih rule
    | clear _ _ => exact List.nodup_nil
  exact h.inStep.ids_eq ▸ hids

end Arises

/-! ### Registering a list of rules -/

theorem rules_foldl_register {rules : List Rule} {r : Registry}
    (hnew : ∀ rule ∈ rules, rule.id ∉ r.ids) (hids : (rules.map Rule.id).Nodup) :
    (rules.foldl Registry.register r).rules = r.rules ++ rules := by
  induction rules generalizing r with
  | nil => simp
  | cons rule rest ih =>
    rw [List.map_cons, List.nodup_cons] at hids
    have hrule := hnew rule List.mem_cons_self
    rw [List.foldl_cons, ih _ hids.2, rules_register_of_not_mem hrule, List.append_assoc,
      List.singleton_append]
    intro x hx hmem
    rw [ids_register_of_not_mem hrule, List.mem_append] at hmem
    rcases hmem with hold | hself
    · exact hnew x (List.mem_cons_of_mem _ hx) hold
    · exact hids.1 (List.mem_singleton.1 hself ▸ List.mem_map_of_mem hx)

/-- Rules with distinct ids are registered as they stand. -/
theorem rules_ofRules {rules : List Rule} (hids : (rules.map Rule.id).Nodup) :
    (ofRules rules).rules = rules := by
  rw [ofRules, rules_foldl_register (by simp [ids]) hids]
  rfl

/-- The registry of the built-in rules holds them in their order. -/
theorem rules_builtIn : builtIn.rules = builtInRules := rules_ofRules nodup_ids_builtInRules

theorem rules_foldl_register_without (gone : String) (rules : List Rule) {r r' : Registry}
    (h : r.InStep) (h' : r'.InStep) (hr : r'.rules = r.rules.filter fun x => x.id != gone) :
    ((rules.filter fun x => x.id != gone).foldl Registry.register r').rules =
      (rules.foldl Registry.register r).rules.filter fun x => x.id != gone := by
  induction rules generalizing r r' with
  | nil => exact hr
  | cons rule rest ih =>
    rw [List.foldl_cons, List.filter_cons]
    by_cases hgone : rule.id = gone
    · -- the rule of that id is skipped on the left and filtered out on the right
      rw [if_neg (by simp [hgone])]
      apply ih (h.register rule) h'
      by_cases hmem : rule.id ∈ r.ids
      · rw [register_of_mem hmem]
        exact hr
      · rw [rules_register_of_not_mem hmem, List.filter_append, hr]
        simp [hgone]
    · rw [if_pos (by simp [hgone]), List.foldl_cons]
      apply ih (h.register rule) (h'.register rule)
      have hids : rule.id ∈ r'.ids ↔ rule.id ∈ r.ids := by
        rw [h.ids_eq, h'.ids_eq]
        simp only [hr, List.mem_map, List.mem_filter, bne_iff_ne]
        constructor
        · rintro ⟨x, ⟨hx, _⟩, hxid⟩
          exact ⟨x, hx, hxid⟩
        · rintro ⟨x, hx, hxid⟩
          exact ⟨x, ⟨hx, hxid ▸ hgone⟩, hxid⟩
      by_cases hmem : rule.id ∈ r.ids
      · rw [register_of_mem hmem, register_of_mem (hids.2 hmem)]
        exact hr
      · rw [rules_register_of_not_mem hmem,
          rules_register_of_not_mem (fun hc => hmem (hids.1 hc)), List.filter_append, hr]
        simp [hgone]

/-- Without the rules of one id, everything else is registered as before. -/
theorem rules_ofRules_without (gone : String) (rules : List Rule) :
    (ofRules (rules.filter fun x => x.id != gone)).rules =
      (ofRules rules).rules.filter fun x => x.id != gone :=
  rules_foldl_register_without gone rules inStep_empty inStep_empty rfl

end Registry

end TreeLint
