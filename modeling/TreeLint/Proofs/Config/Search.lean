import Mathlib.Data.Nat.Find
import TreeLint.Config.Search
import TreeLint.Proofs.Path

/-!
# The nearest configuration file is found

From a normal path the search goes up folder by folder: so many steps up, it looks into the place
with so many names dropped. A step either ends with the first name that stands in the folder
(`nearest_of_isFirstIn`), or goes on in the folder around it (`nearest_of_lacks`), or, at the root,
ends without a file (`nearest_root`). So the search finds the first name of the first folder that
has any of them (`nearest_eq_some_iff`) and fails only if no folder up to the root has one
(`nearest_eq_none_iff`).

The main statement is `search_nearest`.
-/

namespace TreeLint

namespace Config

/-- No configuration file stands in a folder. -/
def Lacks (holds : Text → Bool) (r : Text) (folder : Place) : Prop :=
  ∀ name ∈ fileNames, holds (Path.ofPlace r (name :: folder)) = false

instance (holds : Text → Bool) (r : Text) (folder : Place) : Decidable (Lacks holds r folder) :=
  inferInstanceAs (Decidable (∀ name ∈ fileNames, _))

/-- A configuration file of a name stands in a folder, and none of a name that is preferred. -/
def IsFirstIn (holds : Text → Bool) (r : Text) (folder : Place) (name : String) : Prop :=
  ∃ better worse, fileNames = better ++ name :: worse ∧
    holds (Path.ofPlace r (name :: folder)) = true ∧
    ∀ other ∈ better, holds (Path.ofPlace r (other :: folder)) = false

/-- So many steps up from a place stands the first folder that holds a configuration file, and this
is the name of the file. -/
structure IsNearest (holds : Text → Bool) (r : Text) (p : Place) (n : Nat) (name : String) :
    Prop where
  isFirstIn : IsFirstIn holds r (p.drop n) name
  lacks : ∀ k < n, Lacks holds r (p.drop k)

theorem isPlainName_of_mem_fileNames : ∀ name ∈ fileNames, IsPlainName name := by
  decide

section

variable {holds : Text → Bool} {r path : Text} {p : Place}

theorem IsFirstIn.not_lacks {name : String} (h : IsFirstIn holds r p name) :
    ¬Lacks holds r p := by
  obtain ⟨better, worse, hnames, hholds, -⟩ := h
  intro hlacks
  have hmem : name ∈ fileNames := hnames ▸ List.mem_append_right better List.mem_cons_self
  exact Bool.false_ne_true ((hlacks name hmem).symm.trans hholds)

variable (hr : Path.IsRoot r)

include hr

/-! ### One folder -/

theorem fileIn_ofPlace (hp : p.Plain) :
    fileIn holds (Path.ofPlace r p) =
      (fileNames.map fun name => Path.ofPlace r (name :: p)).find? holds := by
  rw [fileIn]
  congr 1
  refine List.map_congr_left fun name hname => ?_
  exact Path.join_ofPlace hr hp (isPlainName_of_mem_fileNames name hname)

theorem fileIn_eq_none_iff (hp : p.Plain) :
    fileIn holds (Path.ofPlace r p) = none ↔ Lacks holds r p := by
  simp [fileIn_ofPlace hr hp, Lacks]

theorem fileIn_eq_some_iff (hp : p.Plain) :
    fileIn holds (Path.ofPlace r p) = some path ↔
      ∃ name, path = Path.ofPlace r (name :: p) ∧ IsFirstIn holds r p name := by
  rw [fileIn_ofPlace hr hp, List.find?_map, Option.map_eq_some_iff]
  refine exists_congr fun name => ?_
  rw [List.find?_eq_some_iff_append, and_comm, eq_comm, IsFirstIn]
  simp only [Function.comp_apply, Bool.not_eq_true']
  constructor
  · rintro ⟨hpath, hholds, better, worse, hnames, hbetter⟩
    exact ⟨hpath, better, worse, hnames, hholds, hbetter⟩
  · rintro ⟨hpath, better, worse, hnames, hholds, hbetter⟩
    exact ⟨hpath, hholds, better, worse, hnames, hbetter⟩

/-! ### The steps of the search -/

theorem nearest_of_isFirstIn (hp : p.Plain) {name : String} (h : IsFirstIn holds r p name) :
    nearest holds (Path.ofPlace r p) = some (Path.ofPlace r (name :: p)) := by
  have hfile := (fileIn_eq_some_iff hr hp).2 ⟨name, rfl, h⟩
  rw [nearest, hfile]

/-- The root is around itself, so the search ends there. -/
theorem nearest_root (h : Lacks holds r []) : nearest holds (Path.ofPlace r []) = none := by
  have hplain : Place.Plain [] := List.forall_mem_nil _
  have hfile := (fileIn_eq_none_iff hr hplain).2 h
  rw [nearest, hfile]
  exact if_pos (Path.folder_ofPlace hr hplain)

/-- A folder below the root is not around itself, so the search goes on. -/
theorem nearest_of_lacks {name : String} (hp : Place.Plain (name :: p))
    (h : Lacks holds r (name :: p)) :
    nearest holds (Path.ofPlace r (name :: p)) = nearest holds (Path.ofPlace r p) := by
  have hfile := (fileIn_eq_none_iff hr hp).2 h
  have hfolder : Path.folder (Path.ofPlace r (name :: p)) = Path.ofPlace r p :=
    Path.folder_ofPlace hr hp
  have hne : Path.ofPlace r p ≠ Path.ofPlace r (name :: p) := by
    intro heq
    exact List.cons_ne_self name p (Path.ofPlace_inj hr hp.parent hp heq).symm
  rw [nearest, hfile]
  simp only [hfolder, if_neg hne]

/-! ### The whole search -/

theorem lacks_or_isFirstIn (holds : Text → Bool) (hp : p.Plain) :
    Lacks holds r p ∨ ∃ name, IsFirstIn holds r p name := by
  cases hfile : fileIn holds (Path.ofPlace r p) with
  | none => exact Or.inl ((fileIn_eq_none_iff hr hp).1 hfile)
  | some path =>
    obtain ⟨name, -, hfirst⟩ := (fileIn_eq_some_iff hr hp).1 hfile
    exact Or.inr ⟨name, hfirst⟩

/-- Up to the root, some folder is the first that does not lack a file, or all lack one. -/
theorem lacks_or_isNearest (holds : Text → Bool) (hp : p.Plain) :
    (∀ n, Lacks holds r (p.drop n)) ∨ ∃ n name, IsNearest holds r p n name := by
  classical
  by_cases hall : ∀ n, Lacks holds r (p.drop n)
  · exact Or.inl hall
  · have hsome : ∃ n, ¬Lacks holds r (p.drop n) := not_forall.1 hall
    obtain ⟨name, hfirst⟩ :=
      (lacks_or_isFirstIn hr holds (hp.drop _)).resolve_left (Nat.find_spec hsome)
    exact Or.inr ⟨Nat.find hsome, name, hfirst, fun k hk => not_not.1 (Nat.find_min hsome hk)⟩

theorem nearest_of_forall_lacks (hp : p.Plain) (h : ∀ n, Lacks holds r (p.drop n)) :
    nearest holds (Path.ofPlace r p) = none := by
  induction p with
  | nil => exact nearest_root hr (h 0)
  | cons name up ih =>
    rw [nearest_of_lacks hr hp (h 0)]
    exact ih hp.parent fun n => h (n + 1)

theorem nearest_of_isNearest {n : Nat} {name : String} (hp : p.Plain)
    (h : IsNearest holds r p n name) :
    nearest holds (Path.ofPlace r p) = some (Path.ofPlace r (name :: p.drop n)) := by
  obtain ⟨hfirst, hfarther⟩ := h
  induction n generalizing p with
  | zero => exact nearest_of_isFirstIn hr hp hfirst
  | succ n ih =>
    cases p with
    | nil => exact absurd (hfarther 0 n.succ_pos) hfirst.not_lacks
    | cons other up =>
      rw [nearest_of_lacks hr hp (hfarther 0 n.succ_pos)]
      exact ih hp.parent hfirst fun k hk => hfarther (k + 1) (Nat.succ_lt_succ hk)

/-- The search fails exactly if no folder up to the root holds a file. -/
theorem nearest_eq_none_iff (hp : p.Plain) :
    nearest holds (Path.ofPlace r p) = none ↔ ∀ n, Lacks holds r (p.drop n) := by
  refine ⟨fun hnone => ?_, nearest_of_forall_lacks hr hp⟩
  rcases lacks_or_isNearest hr holds hp with hall | ⟨n, name, hnearest⟩
  · exact hall
  · rw [nearest_of_isNearest hr hp hnearest] at hnone
    cases hnone

/-- What the search finds is the first name in the first folder that has one. -/
theorem nearest_eq_some_iff (hp : p.Plain) :
    nearest holds (Path.ofPlace r p) = some path ↔
      ∃ n name, path = Path.ofPlace r (name :: p.drop n) ∧ IsNearest holds r p n name := by
  constructor
  · intro hsome
    rcases lacks_or_isNearest hr holds hp with hall | ⟨n, name, hnearest⟩
    · rw [nearest_of_forall_lacks hr hp hall] at hsome
      cases hsome
    · rw [nearest_of_isNearest hr hp hnearest, Option.some.injEq] at hsome
      exact ⟨n, name, hsome.symm, hnearest⟩
  · rintro ⟨n, name, rfl, hnearest⟩
    exact nearest_of_isNearest hr hp hnearest

/-- **The search finds the nearest file.** From an absolute normal path, it starts in the folder
around the path if a file stands there, and otherwise at the path. So many steps up from there, it
looks into the place with so many names dropped, and from the root no step leads on. It fails
exactly if none of these folders holds a file of one of the four names; otherwise it gives the file
of the first such folder, and there the first name in the order of names. -/
theorem search_nearest (hp : p.Plain) (holds isFile : Text → Bool) (workingFolder : Text) :
    let start := Path.ofPlace r p
    let here := if isFile start then p.parent else p
    (∀ n, Path.folder^[n] (Path.ofPlace r here) = Path.ofPlace r (here.drop n)) ∧
    (search holds isFile workingFolder start = none ↔ ∀ n, Lacks holds r (here.drop n)) ∧
    ∀ path, search holds isFile workingFolder start = some path ↔
      ∃ n name, path = Path.ofPlace r (name :: here.drop n) ∧ IsNearest holds r here n name := by
  intro start here
  have hhere : here.Plain := by
    show Place.Plain (if _ then _ else _)
    split
    · exact hp.parent
    · exact hp
  have hsearch : search holds isFile workingFolder start = nearest holds (Path.ofPlace r here) := by
    simp only [search, start, here, Path.absolute_ofPlace hr hp]
    split
    · rw [Path.folder_ofPlace hr hp]
    · rfl
  rw [hsearch]
  exact ⟨Path.iterate_folder_ofPlace hr hhere, nearest_eq_none_iff hr hhere,
    fun path => nearest_eq_some_iff hr hhere⟩

end

/-- Between a name that is not preferred and a preferred one further up, the nearer file wins. -/
theorem nearer_yaml_found :
    let there : List Text := ["/work/.tvcheck.yml".toList, "/work/a/tvcheck.yaml".toList,
      "/work/a/b/c.ts".toList]
    search there.contains (· == "/work/a/b/c.ts".toList) "/".toList "/work/a/b/c.ts".toList =
      some "/work/a/tvcheck.yaml".toList := by
  intro there
  have hfound := search_nearest (r := ['/']) (p := ["c.ts", "b", "a", "work"]) (Or.inl rfl)
    (by decide) there.contains (· == "/work/a/b/c.ts".toList) "/".toList
  refine (hfound.2.2 _).2 ⟨1, "tvcheck.yaml", by decide, ⟨?_, ?_⟩⟩
  · exact ⟨[".tvcheck.yml", ".tvcheck.yaml", "tvcheck.yml"], [], rfl, by decide, by decide⟩
  · decide

end Config

end TreeLint
