import TreeLint.Disk

/-!
# Reading what was written

A path that a file was written to leads to that file (`find?_of_write`). The new file stands where
no folder was, so every folder on the way is still there (`isFolder_put`).
-/

namespace TreeLint

namespace Disk

variable {d d' : Disk} {p q : Place} {path : String}

theorem isFolder_iff : d.isFolder q = true ↔ d.get? q = some .folder := by
  unfold isFolder
  cases d.get? q with
  | none => simp
  | some e => cases e <;> simp

theorem get?_eq_folder_iff :
    d.get? q = some .folder ↔
      d.entries.lookup q = some .folder ∨ d.entries.lookup q = none ∧
        (q.isSuffixOf d.workingFolder || d.entries.any fun e => q.isSuffixOf e.1) = true := by
  unfold get?
  cases d.entries.lookup q with
  | none =>
    cases q.isSuffixOf d.workingFolder || d.entries.any fun e => q.isSuffixOf e.1 <;> simp
  | some e => simp

theorem isFolder_put (e : DiskEntry) (hp : d.isFolder p = false) (hq : d.isFolder q = true) :
    (d.put p e).isFolder q = true := by
  have hne : q ≠ p := by
    rintro rfl
    rw [hp] at hq
    cases hq
  have hlookup : (d.put p e).entries.lookup q = d.entries.lookup q := by
    simp only [put, List.lookup_cons, beq_eq_false_iff_ne.2 hne]
  rw [isFolder_iff, get?_eq_folder_iff] at hq ⊢
  rw [hlookup]
  refine hq.imp_right ?_
  rintro ⟨hnone, hinside⟩
  refine ⟨hnone, ?_⟩
  rw [Bool.or_eq_true] at hinside ⊢
  refine hinside.imp_right fun h => ?_
  rw [put, List.any_cons, h, Bool.or_true]

/-- With more folders, a way still leads to where it led. -/
theorem foldlM_step_mono (h : ∀ q, d.isFolder q = true → d'.isFolder q = true)
    {names : List String} (hway : names.foldlM d.step q = some p) :
    names.foldlM d'.step q = some p := by
  induction names generalizing q with
  | nil => exact hway
  | cons name rest ih =>
    rw [List.foldlM_cons] at hway ⊢
    cases hstep : d.step q name with
    | none =>
      rw [hstep] at hway
      cases hway
    | some next =>
      rw [hstep] at hway
      have hnext : d'.step q name = some next := by
        rw [step] at hstep ⊢
        split at hstep
        · rename_i hfolder
          rw [if_pos (h q hfolder)]
          exact hstep
        · cases hstep
      rw [hnext]
      exact ih hway

/-- A file is written where its path leads to once the folders are made, if there is none. -/
theorem exists_of_write {content : ByteArray} (h : d.write path content = .ok d') :
    ∃ (made : Disk) (p : Place), made.locate path = some p ∧ made.isFolder p = false ∧
      d' = made.put p (.file content) := by
  rw [write] at h
  cases hway : d.makeWay (d.startOf path) (folderNames path) with
  | error e =>
    rw [hway] at h
    cases h
  | ok made =>
    simp only [hway, bind, Except.bind] at h
    split at h
    · cases h
    · split at h
      · cases h
      · rename_i p hp
        split at h
        · cases h
        · rename_i hfolder
          split at h
          · cases h
          · cases h
            exact ⟨made, p, hp, Bool.not_eq_true _ ▸ hfolder, rfl⟩

/-- **A path leads to the file that was written to it.** -/
theorem find?_of_write {content : ByteArray} (h : d.write path content = .ok d') :
    ∃ p, d'.find? path = some p ∧ d'.get? p = some (.file content) := by
  obtain ⟨made, p, hp, hfolder, rfl⟩ := exists_of_write h
  have hlocate : (made.put p (.file content)).locate path = some p := by
    rw [locate] at hp ⊢
    split at hp
    · cases hp
    · rename_i hpath
      rw [if_neg hpath]
      exact foldlM_step_mono (fun q hq => isFolder_put _ hfolder hq) hp
  refine ⟨p, ?_, get?_put_self _ _ _⟩
  rw [find?, hlocate]
  simp [holds]

end Disk

end TreeLint
