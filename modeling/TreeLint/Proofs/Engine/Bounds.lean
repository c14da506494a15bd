import TreeLint.Proofs.Edit.Conflict
import TreeLint.Proofs.Engine.Contribution
import TreeLint.Proofs.Report

/-!
# Whatever is reported lies in the text

A rule of a host may yield edits anywhere, and a configuration may hold anything. Still, once an
analysis comes to a result, all of it can be used: an output is kept only if it lies in the text
(`fits_of_keepFitting`), a new severity does not move it (`fits_of_regrade`), and a highlight that
stands for a diagnostic has its range (`fits_of_analyze`).

So a report can be given and every range in it is valid, and applying the edits can fail for one
reason only, two edits in conflict (`analyze_reportable`).
-/

namespace TreeLint

namespace Engine

open Attempt

variable {c : Config} {s : Source}

/-! ### From a visit to an analysis -/

theorem fits_of_keepFitting {ruleId : String} {n : Nat} {ys : List Yield} {os : List Output}
    (h : (keepFitting ruleId n ys).result = .ok os) : ∀ o ∈ os, o.fits n = true := by
  rw [result_keepFitting] at h
  split at h
  · cases h
  · cases h
    intro o ho
    exact (List.mem_filter.1 ho).2

theorem fits_of_runRule {rule : Rule} {o : Options} {os : List Output}
    (h : (runRule rule s o).result = .ok os) : ∀ x ∈ os, x.fits s.text.length = true := by
  unfold runRule at h
  simp only at h
  split at h
  · obtain ⟨_, _, hnil⟩ := result_bind_eq_ok.1 h
    cases hnil
    intro x hx
    cases hx
  · exact fits_of_keepFitting h

/-- A new severity leaves an output where it is. -/
theorem fits_of_regrade {o o' : Output} (h : c.regrade o = .ok o') (n : Nat) :
    o'.fits n = o.fits n := by
  cases o with
  | diagnostic d =>
    rw [Config.regrade] at h
    cases hs : c.severityOr d.ruleId d.severity with
    | error e =>
      rw [hs] at h
      cases h
    | ok severity =>
      rw [hs] at h
      cases h
      rfl
  | highlight m =>
    cases h
    rfl
  | edit x =>
    cases h
    rfl

/-- What a check of all items gives comes from the items. -/
theorem exists_of_mem_mapM {ε α β : Type} {f : α → Except ε β} {xs : List α} {ys : List β}
    (h : xs.mapM f = .ok ys) : ∀ y ∈ ys, ∃ x ∈ xs, f x = .ok y := by
  induction xs generalizing ys with
  | nil =>
    cases h
    intro y hy
    cases hy
  | cons x xs ih =>
    rw [List.mapM_cons] at h
    cases hhead : f x with
    | error e =>
      rw [hhead] at h
      cases h
    | ok y =>
      cases hrest : xs.mapM f with
      | error e =>
        rw [hhead, hrest] at h
        cases h
      | ok rest =>
        rw [hhead, hrest] at h
        cases h
        intro z hz
        rcases List.mem_cons.1 hz with rfl | hz
        · exact ⟨x, List.mem_cons_self, hhead⟩
        · obtain ⟨w, hw, hwz⟩ := ih hrest z hz
          exact ⟨w, List.mem_cons_of_mem _ hw, hwz⟩

/-- What rules put out one after the other lies in the text. -/
theorem fits_of_outputs {rules : List Rule} {os : List Output}
    (h : (outputs c s rules).result = .ok os) : ∀ o ∈ os, o.fits s.text.length = true := by
  induction rules generalizing os with
  | nil =>
    cases h
    intro o ho
    cases ho
  | cons rule rest ih =>
    rw [outputs] at h
    obtain ⟨o, -, h⟩ := result_bind_eq_ok.1 h
    obtain ⟨kept, hkept, h⟩ := result_bind_eq_ok.1 h
    obtain ⟨graded, hgraded, h⟩ := result_bind_eq_ok.1 h
    obtain ⟨others, hothers, h⟩ := result_bind_eq_ok.1 h
    cases h
    have hmapM : kept.mapM c.regrade = .ok graded := by
      rw [fromConfig, result_ofExcept] at hgraded
      cases hm : kept.mapM c.regrade with
      | error e =>
        rw [hm] at hgraded
        cases hgraded
      | ok g =>
        rw [hm] at hgraded
        cases hgraded
        rfl
    intro x hx
    rcases List.mem_append.1 hx with hx | hx
    · obtain ⟨y, hy, hyx⟩ := exists_of_mem_mapM hmapM x hx
      rw [fits_of_regrade hyx]
      exact fits_of_runRule hkept y hy
    · exact ih hothers x hx

theorem fits_of_collect {n : Nat} {os : List Output} (h : ∀ o ∈ os, o.fits n = true) :
    ∀ o ∈ (c.collect os).outputs, o.fits n = true := by
  intro o ho
  simp only [Analysis.outputs, Config.diagnostics_collect, Config.highlights_collect,
    Config.edits_collect, List.mem_append, List.mem_map, List.mem_filterMap] at ho
  rcases ho with (⟨d, ⟨x, hx, hxd⟩, rfl⟩ | ⟨m, (⟨x, hx, hxm⟩ | hm), rfl⟩) | ⟨e, ⟨x, hx, hxe⟩, rfl⟩
  · cases x <;> cases hxd
    exact h _ hx
  · cases x <;> cases hxm
    exact h _ hx
  · -- a highlight that stands for a diagnostic has its range
    split at hm
    · obtain ⟨d, hd, rfl⟩ := List.mem_map.1 hm
      obtain ⟨x, hx, hxd⟩ := List.mem_filterMap.1 hd
      cases x <;> cases hxd
      exact h (.diagnostic d) hx
    · cases hm
  · cases x <;> cases hxe
    exact h _ hx

variable {e : Engine} {text : Text} {name : Option String} {answer : ParserAnswer} {a : Analysis}

/-- **What an analysis reports lies in its text.** -/
theorem fits_of_analyze (h : (e.analyze c text name answer).1.result = .ok a) :
    ∀ o ∈ a.outputs, o.fits text.length = true := by
  unfold analyze at h
  cases hkind : FileKind.ofName name with
  | error err =>
    simp only [hkind] at h
    cases h
  | ok kind =>
    cases hrules : e.rulesFor c kind with
    | error err =>
      simp only [hkind, hrules] at h
      cases h
    | ok rules =>
      simp only [hkind, hrules] at h
      cases hroot : (e.frontend.parse kind answer).1 with
      | error err =>
        simp only [hroot] at h
        obtain ⟨_, _, h⟩ := result_bind_eq_ok.1 h
        cases h
        intro o ho
        cases ho
      | ok root =>
        simp only [hroot] at h
        obtain ⟨os, hos, h⟩ := result_bind_eq_ok.1 h
        cases h
        exact fits_of_collect (fits_of_outputs (s := sourceOf kind text root) hos)

theorem mem_outputs_of_mem_edits {x : Edit} (hx : x ∈ a.edits) : .edit x ∈ a.outputs :=
  List.mem_append_right _ (List.mem_map_of_mem hx)

/-- **What an analysis reports can be used.** Whatever the rules yield and the configuration
holds, once there is a result

* all that it holds lies in the text;
* a report can be given and shows all of it, with valid ranges that say in lines and columns what
  the offsets say;
* applying the edits never fails because of a single one, and fails because of two exactly when
  two of them are in conflict. -/
theorem analyze_reportable (h : (e.analyze c text name answer).1.result = .ok a) :
    (∀ o ∈ a.outputs, 0 ≤ o.start ∧ o.start ≤ o.stop ∧ o.stop ≤ text.length) ∧
    (∃ report, Report.ofAnalysis (.ofText text) a = .ok report ∧
      List.Forall₂ (Report.Shows text) a.outputs (Report.items report)) ∧
    (∀ x n, Edit.applyAll text a.edits ≠ .error (.outside x n)) ∧
    ((∃ x y, Edit.applyAll text a.edits = .error (.overlapping x y)) ↔
      Edit.SomeConflict a.edits) := by
  have hfits := fits_of_analyze h
  refine ⟨?_, Report.ofAnalysis_of_fits hfits, ?_⟩
  · intro o ho
    exact Output.fits_iff.1 (hfits o ho)
  · apply Edit.applyAll_of_fits
    intro x hx
    exact hfits _ (mem_outputs_of_mem_edits hx)

end Engine

end TreeLint
