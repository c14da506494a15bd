import Mathlib.Data.List.Nodup
import TreeLint.Proofs.Registry

/-!
# The history of a registry

A registry is changed by registering a rule and by clearing it (`Registry.Change`). What it answers
depends on the rules that were offered to it since it was last cleared (`Registry.offered`), and of
these only the first one under each id counts. `Registry.Holds` says so for one registry; it is kept
by every change (`Holds.apply`) and so it holds after any number of them (`holds_after`).

The main statement, `after_inStep`, puts the list, the index and the history side by side.
-/

namespace TreeLint

namespace Registry

/-- What may be done to a registry. -/
inductive Change where
  | register (rule : Rule)
  | clear

/-- A registry after a change. -/
def apply (r : Registry) : Change → Registry
  | .register rule => r.register rule
  | .clear => r.clear

/-- The registry of a list of rules after changes. -/
def after (initial : List Rule) (changes : List Change) : Registry :=
  changes.foldl apply (ofRules initial)

/-- Rules that were offered, after one more change. A registry that is cleared forgets them. -/
def offer (rules : List Rule) : Change → List Rule
  | .register rule => rules ++ [rule]
  | .clear => []

/-- The rules that were offered since the last time the registry was cleared, taken or not. If it
never was, the rules it started with come first. -/
def offered (initial : List Rule) (changes : List Change) : List Rule :=
  changes.foldl offer initial

theorem offered_register (initial rules : List Rule) :
    offered initial (rules.map .register) = initial ++ rules := by
  induction rules generalizing initial with
  | nil => exact (List.append_nil initial).symm
  | cons rule rest ih =>
    show offered (initial ++ [rule]) (rest.map .register) = _
    rw [ih, List.append_assoc, List.singleton_append]

/-- A registry that holds, of the rules it was offered, the first one under each id. -/
structure Holds (r : Registry) (rules : List Rule) : Prop where
  inStep : r.InStep
  nodup : r.ids.Nodup
  get?_eq : ∀ id, r.get? id = rules.find? fun rule => rule.id == id
  sublist : r.rules.Sublist rules

namespace Holds

variable {r : Registry} {rules : List Rule}

theorem mem_ids_iff (h : r.Holds rules) {id : String} : id ∈ r.ids ↔ (r.get? id).isSome := by
  rw [h.inStep.get?_eq, List.find?_isSome, h.inStep.ids_eq, List.mem_map]
  simp only [beq_iff_eq]

/-- An id names one rule of the list at most. -/
theorem get?_eq_some_iff (h : r.Holds rules) {id : String} {rule : Rule} :
    r.get? id = some rule ↔ rule ∈ r.rules ∧ rule.id = id := by
  rw [h.inStep.get?_eq]
  constructor
  · intro hfind
    have hid := List.find?_some hfind
    exact ⟨List.mem_of_find?_eq_some hfind, beq_iff_eq.1 hid⟩
  · rintro ⟨hmem, rfl⟩
    have hfound : (r.rules.find? fun x => x.id == rule.id).isSome :=
      List.find?_isSome.2 ⟨rule, hmem, beq_self_eq_true _⟩
    obtain ⟨x, hx⟩ := Option.isSome_iff_exists.1 hfound
    have hid := List.find?_some hx
    have hnodup : (r.rules.map Rule.id).Nodup := h.inStep.ids_eq ▸ h.nodup
    rw [hx, List.inj_on_of_nodup_map hnodup (List.mem_of_find?_eq_some hx) hmem (beq_iff_eq.1 hid)]

/-- Of two rules under one id the first one stays. -/
theorem register (h : r.Holds rules) (rule : Rule) :
    (r.register rule).Holds (rules ++ [rule]) := by
  by_cases hid : rule.id ∈ r.ids
  · rw [register_of_mem hid]
    refine ⟨h.inStep, h.nodup, ?_, h.sublist.trans (List.sublist_append_left _ _)⟩
    intro id
    rw [List.find?_append, ← h.get?_eq]
    by_cases heq : rule.id = id
    · -- the id is taken, so the new rule is not looked at
      have hsome : (r.get? id).isSome := heq ▸ h.mem_ids_iff.1 hid
      exact (Option.or_of_isSome hsome).symm
    · rw [List.find?_singleton, if_neg (by simpa using heq), Option.or_none]
  · refine ⟨h.inStep.register rule, nodup_ids_register h.nodup rule, ?_, ?_⟩
    · intro id
      rw [(h.inStep.register rule).get?_eq, rules_register_of_not_mem hid, List.find?_append,
        List.find?_append, ← h.inStep.get?_eq, h.get?_eq]
    · rw [rules_register_of_not_mem hid]
      exact h.sublist.append_right [rule]

theorem clear (r : Registry) : r.clear.Holds [] :=
  ⟨inStep_empty, List.nodup_nil, fun _ => rfl, .refl _⟩

/-- What one change keeps. -/
theorem apply (h : r.Holds rules) (c : Change) : (r.apply c).Holds (offer rules c) := by
  cases c with
  | register rule => exact h.register rule
  | clear => exact Holds.clear r

theorem foldl_apply (h : r.Holds rules) (changes : List Change) :
    (changes.foldl Registry.apply r).Holds (offered rules changes) := by
  induction changes generalizing r rules with
  | nil => exact h
  | cons c rest ih => exact ih (h.apply c)

end Holds

/-- A registry is made by registering its first rules. -/
theorem holds_ofRules (rules : List Rule) : (ofRules rules).Holds rules := by
  have h := (Holds.clear {}).foldl_apply (rules.map .register)
  rw [offered_register, List.foldl_map] at h
  exact h

/-- What any number of changes keeps. -/
theorem holds_after (initial : List Rule) (changes : List Change) :
    (after initial changes).Holds (offered initial changes) :=
  (holds_ofRules initial).foldl_apply changes

/-- **The list and the index of a registry stay in step.** Whatever rules a registry starts with and
whatever is done to it, its list holds every id once, the index has the same ids in the same order,
and there are as many of them as the size says. Looking an id up finds the one rule of the list that
has it, and nothing if no rule does. This is the first rule that was offered under the id since the
registry was last cleared, and the list keeps the order of the offers. Another rule under an id that
is taken changes nothing, neither the list nor the index. -/
theorem after_inStep (initial : List Rule) (changes : List Change) :
    ((after initial changes).rules.map Rule.id).Nodup ∧
    (after initial changes).ids = (after initial changes).rules.map Rule.id ∧
    (after initial changes).size = (after initial changes).ids.length ∧
    (∀ id rule, (after initial changes).get? id = some rule ↔
      rule ∈ (after initial changes).rules ∧ rule.id = id) ∧
    (∀ id, (after initial changes).get? id = none ↔ id ∉ (after initial changes).ids) ∧
    (∀ id, (after initial changes).get? id =
      (offered initial changes).find? fun rule => rule.id == id) ∧
    (after initial changes).rules.Sublist (offered initial changes) ∧
    ∀ rule, rule.id ∈ (after initial changes).ids →
      (after initial changes).register rule = after initial changes := by
  have h := holds_after initial changes
  refine ⟨h.inStep.ids_eq ▸ h.nodup, h.inStep.ids_eq, ?size, fun id rule => h.get?_eq_some_iff,
    ?absent, h.get?_eq, h.sublist, fun rule => register_of_mem⟩
  case size => rw [h.inStep.ids_eq, List.length_map, size]
  case absent =>
    intro id
    rw [h.mem_ids_iff, Option.not_isSome_iff_eq_none]

/-- A rule under the id of another one. -/
def impostor : Rule := { SwitchDefault.rule with info := NoAny.info }

/-- Registered behind the rule whose id it has, the impostor is passed over, and it is passed over
again when the registry is cleared and both come back. Before the other rule it is taken. -/
theorem impostor_passed_over :
    (after [NoAny.rule, impostor] [.register impostor]).get? "types.no_any" = some NoAny.rule ∧
    (after [impostor] [.clear, .register NoAny.rule, .register impostor]).get? "types.no_any" =
      some NoAny.rule ∧
    (after [NoAny.rule] [.clear, .register impostor]).get? "types.no_any" = some impostor ∧
    (after [NoAny.rule] []).register impostor = after [NoAny.rule] [] := by
  obtain ⟨-, -, -, -, -, hfirst, -, -⟩ := after_inStep [NoAny.rule, impostor] [.register impostor]
  obtain ⟨-, -, -, -, -, hagain, -, -⟩ :=
    after_inStep [impostor] [.clear, .register NoAny.rule, .register impostor]
  obtain ⟨-, -, -, -, -, hbefore, -, -⟩ :=
    after_inStep [NoAny.rule] [.clear, .register impostor]
  obtain ⟨-, hids, -, -, -, -, -, hsame⟩ := after_inStep [NoAny.rule] []
  refine ⟨(hfirst _).trans rfl, (hagain _).trans rfl, (hbefore _).trans rfl, hsame impostor ?_⟩
  rw [hids]
  exact List.mem_singleton.2 rfl

end Registry

end TreeLint
