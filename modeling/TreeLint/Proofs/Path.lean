import Mathlib.Data.List.Basic
import Mathlib.Logic.Function.Iterate
import TreeLint.Path
import TreeLint.Proofs.Text.Segment

/-!
# Paths without dots and empty names

A path like `/a/b` is the root and the names of a place, with slashes between them (`Path.ofPlace`).
On such paths the operations on texts do what they are meant to do:

* `join_ofPlace` — a name behind the path to a folder gives the path to a place in it;
* `folder_ofPlace` — the folder of a path is the path to the folder, and a root is its own folder;
* `normal_ofPlace` — there is nothing to make normal.

They are all the absolute paths that are normal (`normal_eq_self_iff`), and what any path is made
into from the working folder on (`absolute_eq_normalize`).
-/

namespace TreeLint

/-- A name that says by itself where it leads. -/
structure IsPlainName (name : String) : Prop where
  ne_empty : name ≠ ""
  ne_dot : name ≠ "."
  ne_dots : name ≠ ".."
  not_mem_slash : '/' ∉ name.toList

instance (name : String) : Decidable (IsPlainName name) :=
  decidable_of_iff (name ≠ "" ∧ name ≠ "." ∧ name ≠ ".." ∧ '/' ∉ name.toList)
    ⟨fun ⟨hempty, hdot, hdots, hslash⟩ => ⟨hempty, hdot, hdots, hslash⟩,
      fun ⟨hempty, hdot, hdots, hslash⟩ => ⟨hempty, hdot, hdots, hslash⟩⟩

namespace IsPlainName

variable {name : String}

theorem toList_ne_nil (h : IsPlainName name) : name.toList ≠ [] := by
  rw [Ne, String.toList_eq_nil_iff]
  exact h.ne_empty

theorem head?_ne (h : IsPlainName name) : name.toList.head? ≠ some '/' :=
  fun hhead => h.not_mem_slash (List.mem_of_mem_head? hhead)

theorem getLast?_ne (h : IsPlainName name) : name.toList.getLast? ≠ some '/' :=
  fun hlast => h.not_mem_slash (List.mem_of_getLast? hlast)

theorem enter_eq (h : IsPlainName name) (p : Place) : p.enter name = name :: p := by
  rw [Place.enter, if_neg (not_or.2 ⟨h.ne_empty, h.ne_dot⟩), if_neg h.ne_dots]

end IsPlainName

namespace Place

/-- All names on the way to a place are plain. -/
def Plain (p : Place) : Prop := ∀ name ∈ p, IsPlainName name

instance (p : Place) : Decidable p.Plain := inferInstanceAs (Decidable (∀ name ∈ p, _))

variable {p : Place} {name : String}

theorem Plain.parent (h : p.Plain) : p.parent.Plain :=
  fun name hname => h name (List.mem_of_mem_tail hname)

theorem Plain.drop (h : p.Plain) (n : Nat) : Plain (p.drop n) :=
  fun name hname => h name (List.mem_of_mem_drop hname)

/-- Whatever name is entered, the place stays plain. -/
theorem Plain.enter (h : p.Plain) (hname : '/' ∉ name.toList) : (p.enter name).Plain := by
  rw [Place.enter]
  split
  · exact h
  · split
    · exact h.parent
    · rename_i hnone hdots
      obtain ⟨hempty, hdot⟩ := not_or.1 hnone
      exact List.forall_mem_cons.2 ⟨⟨hempty, hdot, hdots, hname⟩, h⟩

theorem Plain.foldl_enter (h : p.Plain) {names : List String}
    (hnames : ∀ name ∈ names, '/' ∉ name.toList) : Plain (names.foldl Place.enter p) := by
  induction names generalizing p with
  | nil => exact h
  | cons name rest ih =>
    obtain ⟨hname, hrest⟩ := List.forall_mem_cons.1 hnames
    exact ih (h.enter hname) hrest

/-- Plain names are entered one after the other. -/
theorem foldl_enter_of_plain {names : List String} (h : ∀ name ∈ names, IsPlainName name) :
    names.foldl Place.enter p = names.reverse ++ p := by
  induction names generalizing p with
  | nil => rfl
  | cons name rest ih =>
    obtain ⟨hname, hrest⟩ := List.forall_mem_cons.1 h
    rw [List.foldl_cons, hname.enter_eq, ih hrest, List.reverse_cons, List.append_assoc,
      List.singleton_append]

end Place

namespace Path

/-- One slash, or two. -/
def IsRoot (r : Text) : Prop := r = ['/'] ∨ r = ['/', '/']

theorem isRoot_root {p : Text} (h : p.head? = some '/') : IsRoot (root p) := by
  obtain ⟨rest, rfl⟩ := List.head?_eq_some_iff.1 h
  unfold root
  split
  · exact Or.inl rfl
  · exact Or.inr rfl
  · exact Or.inl rfl
  · rename_i hslash
    exact absurd rfl (hslash rest)

/-! ### The text of a path -/

theorem intercalate_concat {α : Type*} (sep last : List α) {parts : List (List α)}
    (h : parts ≠ []) :
    sep.intercalate (parts ++ [last]) = sep.intercalate parts ++ sep ++ last := by
  induction parts with
  | nil => exact absurd rfl h
  | cons part parts ih =>
    cases parts with
    | nil => simp
    | cons next parts =>
      rw [List.cons_append, List.cons_append, List.intercalate_cons_cons, ← List.cons_append,
        ih (List.cons_ne_nil _ _), List.intercalate_cons_cons]
      simp only [List.append_assoc]

variable {r : Text} {p : Place} {name : String}

@[simp] theorem ofPlace_nil (r : Text) : ofPlace r [] = r := by
  simp [ofPlace]

@[simp] theorem ofPlace_singleton (r : Text) (name : String) :
    ofPlace r [name] = r ++ name.toList := by
  simp [ofPlace]

theorem ofPlace_cons (r : Text) (name : String) (h : p ≠ []) :
    ofPlace r (name :: p) = ofPlace r p ++ '/' :: name.toList := by
  have hparts : p.reverse.map String.toList ≠ [] := by simpa using h
  rw [ofPlace, ofPlace, List.reverse_cons, List.map_append, List.map_singleton,
    intercalate_concat ['/'] name.toList hparts, ← List.append_assoc, ← List.append_assoc,
    List.append_assoc, List.singleton_append]

/-- Behind the slashes of the root, a path ends with a name. -/
theorem getLast?_ofPlace_ne (hp : p.Plain) (hne : p ≠ []) :
    (ofPlace r p).getLast? ≠ some '/' := by
  obtain ⟨name, up, rfl⟩ := List.exists_cons_of_ne_nil hne
  have hname := hp name List.mem_cons_self
  by_cases hup : up = []
  · rw [hup, ofPlace_singleton, List.getLast?_append_of_ne_nil _ hname.toList_ne_nil]
    exact hname.getLast?_ne
  · rw [ofPlace_cons r name hup, List.append_cons,
      List.getLast?_append_of_ne_nil _ hname.toList_ne_nil]
    exact hname.getLast?_ne

theorem head?_ofPlace (hr : IsRoot r) (p : Place) : (ofPlace r p).head? = some '/' := by
  rcases hr with rfl | rfl <;> rfl

theorem ofPlace_ne_nil (hr : IsRoot r) (p : Place) : ofPlace r p ≠ [] := by
  intro hnil
  have hhead := head?_ofPlace hr p
  rw [hnil] at hhead
  cases hhead

/-- **A name behind a folder.** -/
theorem join_ofPlace (hr : IsRoot r) (hp : p.Plain) (hname : IsPlainName name) :
    join (ofPlace r p) name.toList = ofPlace r (name :: p) := by
  rw [join, if_neg (not_or.2 ⟨hname.head?_ne, ofPlace_ne_nil hr p⟩)]
  by_cases hp' : p = []
  · have hslash : (ofPlace r p).getLast? = some '/' := by
      rw [hp', ofPlace_nil]
      rcases hr with rfl | rfl <;> rfl
    rw [if_pos hslash, hp', ofPlace_nil, ofPlace_singleton]
  · rw [if_neg (getLast?_ofPlace_ne hp hp'), ofPlace_cons r name hp']

/-! ### The folder around -/

theorem take_afterLast (front : Text) {name : Text} (hname : '/' ∉ name) :
    (front ++ '/' :: name).take (Text.afterLast '/' (front ++ '/' :: name)) = front ++ ['/'] := by
  rw [Text.afterLast_append_cons front hname, List.append_cons,
    List.take_left' (by rw [List.length_append, List.length_singleton])]

theorem folder_root_append (hr : IsRoot r) {name : Text} (hname : '/' ∉ name) :
    folder (r ++ name) = r := by
  have htake : (r ++ name).take (Text.afterLast '/' (r ++ name)) = r := by
    rcases hr with rfl | rfl
    · exact take_afterLast [] hname
    · exact take_afterLast ['/'] hname
  have hslashes : r.all (· == '/') = true := by
    rcases hr with rfl | rfl <;> rfl
  simp only [folder, htake, hslashes, if_true]

/-- A text that does not end with a slash is left when a slash behind it is trimmed. -/
theorem trimmed_concat {front : Text} (hlast : front.getLast? ≠ some '/') :
    trimmed (front ++ ['/']) = front := by
  rw [trimmed, List.reverse_concat, List.dropWhile_cons_of_pos (by rfl)]
  cases hrev : front.reverse with
  | nil => simpa using hrev.symm
  | cons c rest =>
    have hc : c ≠ '/' := by
      rintro rfl
      rw [← List.head?_reverse, hrev] at hlast
      exact hlast rfl
    rw [List.dropWhile_cons_of_neg (by simpa using hc), ← hrev, List.reverse_reverse]

theorem folder_append_cons {front name : Text} (hne : front ≠ [])
    (hlast : front.getLast? ≠ some '/') (hname : '/' ∉ name) :
    folder (front ++ '/' :: name) = front := by
  have hall : ¬(front ++ ['/']).all (· == '/') = true := by
    rw [List.all_eq_true]
    intro hslashes
    have hmem := List.getLast_mem hne
    have heq := beq_iff_eq.1 (hslashes _ (List.mem_append_left _ hmem))
    exact hlast (by rw [List.getLast?_eq_some_getLast hne, heq])
  simp only [folder, take_afterLast front hname, if_neg hall, trimmed_concat hlast]

/-- **The folder around a place.** The root is around itself. -/
theorem folder_ofPlace (hr : IsRoot r) (hp : p.Plain) :
    folder (ofPlace r p) = ofPlace r p.parent := by
  cases p with
  | nil =>
    have hroot := folder_root_append hr (List.not_mem_nil (a := '/'))
    rw [List.append_nil] at hroot
    show folder (ofPlace r []) = ofPlace r []
    rw [ofPlace_nil, hroot]
  | cons name up =>
    have hname := (hp name List.mem_cons_self).not_mem_slash
    show folder _ = ofPlace r up
    by_cases hup : up = []
    · rw [hup, ofPlace_singleton, ofPlace_nil, folder_root_append hr hname]
    · rw [ofPlace_cons r name hup]
      exact folder_append_cons (ofPlace_ne_nil hr up) (getLast?_ofPlace_ne hp.parent hup) hname

/-- So many folders up from a place; from the root on, the way leads nowhere else. -/
theorem iterate_folder_ofPlace (hr : IsRoot r) (hp : p.Plain) (n : Nat) :
    folder^[n] (ofPlace r p) = ofPlace r (p.drop n) := by
  induction n generalizing p with
  | zero => rfl
  | succ n ih =>
    rw [Function.iterate_succ_apply, folder_ofPlace hr hp, ih hp.parent, Place.parent,
      ← List.drop_one, List.drop_drop, Nat.add_comm]

/-! ### Normal paths -/

/-- Slashes at the start name nothing. -/
theorem foldl_enter_root_append (hr : IsRoot r) (t : Text) :
    (Disk.names (String.ofList (r ++ t))).foldl Place.enter [] =
      (Disk.names (String.ofList t)).foldl Place.enter [] := by
  simp only [Disk.names, String.toList_ofList]
  rcases hr with rfl | rfl <;> rfl

/-- A path is cut up into the names it is made of. -/
theorem names_intercalate {names : List String} (hne : names ≠ [])
    (h : ∀ name ∈ names, IsPlainName name) :
    Disk.names (String.ofList (List.intercalate ['/'] (names.map String.toList))) = names := by
  have hslash : ∀ t ∈ names.map String.toList, '/' ∉ t :=
    List.forall_mem_map.2 fun name hname => (h name hname).not_mem_slash
  rw [Disk.names, String.toList_ofList, Text.split_eq_splitOn,
    List.splitOn_intercalate '/' hslash (by simpa using hne), List.map_map]
  simp [Function.comp_def]

theorem foldl_enter_ofPlace (hr : IsRoot r) (hp : p.Plain) :
    (Disk.names (String.ofList (ofPlace r p))).foldl Place.enter [] = p := by
  rw [ofPlace, foldl_enter_root_append hr]
  by_cases hne : p = []
  · rw [hne]
    rfl
  · have hplain : ∀ name ∈ p.reverse, IsPlainName name :=
      fun name hname => hp name (List.mem_reverse.1 hname)
    rw [names_intercalate (by simpa using hne) hplain, Place.foldl_enter_of_plain hplain,
      List.reverse_reverse, List.append_nil]

/-- The path to a place says which place it is. -/
theorem ofPlace_inj {q : Place} (hr : IsRoot r) (hp : p.Plain) (hq : q.Plain)
    (h : ofPlace r p = ofPlace r q) : p = q := by
  rw [← foldl_enter_ofPlace hr hp, h, foldl_enter_ofPlace hr hq]

theorem root_append (hr : IsRoot r) {t : Text} (ht : t.head? ≠ some '/') : root (r ++ t) = r := by
  cases t with
  | nil => rcases hr with rfl | rfl <;> rfl
  | cons c t =>
    have hc : c ≠ '/' := fun heq => ht (by rw [heq, List.head?_cons])
    rcases hr with rfl | rfl <;> simp [root, hc]

/-- The names of a path start with a character that is no slash. -/
theorem head?_intercalate_ne (hp : p.Plain) :
    (List.intercalate ['/'] (p.reverse.map String.toList)).head? ≠ some '/' := by
  cases hnames : p.reverse with
  | nil => simp
  | cons name rest =>
    have hname := hp name (List.mem_reverse.1 (hnames ▸ List.mem_cons_self))
    cases rest with
    | nil => simpa using hname.head?_ne
    | cons next rest =>
      rw [List.map_cons, List.map_cons, List.intercalate_cons_cons, List.append_assoc,
        List.head?_append_of_ne_nil _ hname.toList_ne_nil]
      exact hname.head?_ne

theorem root_ofPlace (hr : IsRoot r) (hp : p.Plain) : root (ofPlace r p) = r :=
  root_append hr (head?_intercalate_ne hp)

/-- **Nothing to make normal.** -/
theorem normal_ofPlace (hr : IsRoot r) (hp : p.Plain) : normal (ofPlace r p) = ofPlace r p := by
  rw [normal, root_ofPlace hr hp, foldl_enter_ofPlace hr hp]

theorem absolute_ofPlace (hr : IsRoot r) (hp : p.Plain) (workingFolder : Text) :
    absolute workingFolder (ofPlace r p) = ofPlace r p := by
  rw [absolute, join, if_pos (Or.inl (head?_ofPlace hr p)), normal_ofPlace hr hp]

/-- The names of two paths with a slash between them. -/
theorem names_append_cons (p q : Text) :
    Disk.names (String.ofList (p ++ '/' :: q)) =
      Disk.names (String.ofList p) ++ Disk.names (String.ofList q) := by
  simp only [Disk.names, String.toList_ofList, Text.split_eq_splitOn,
    List.splitOn_append_cons_self, List.map_append]

/-- **Paths lead from the working folder on.** The absolute form of a path is the path to the place
that the names in it lead to. -/
theorem absolute_eq_normalize (d : Disk) (hfolder : d.workingFolder.Plain) (path : String) :
    absolute (ofPlace ['/'] d.workingFolder) path.toList =
      ofPlace (if path.toList.head? = some '/' then root path.toList else ['/'])
        (d.normalize path) := by
  have hr : IsRoot ['/'] := Or.inl rfl
  by_cases hslash : path.toList.head? = some '/'
  · rw [absolute, join, if_pos (Or.inl hslash), normal, if_pos hslash, Disk.normalize,
      Disk.startOf, if_pos hslash, String.ofList_toList]
  · rw [if_neg hslash, absolute, join, if_neg (not_or.2 ⟨hslash, ofPlace_ne_nil hr _⟩), normal,
      Disk.normalize, Disk.startOf, if_neg hslash]
    by_cases hnil : d.workingFolder = []
    · rw [hnil, ofPlace_nil, if_pos (by rfl), root_append hr hslash, foldl_enter_root_append hr,
        String.ofList_toList]
    · have hroot : root (ofPlace ['/'] d.workingFolder ++ '/' :: path.toList) = ['/'] := by
        rw [ofPlace, List.append_assoc]
        refine root_append hr ?_
        rw [List.head?_append_of_ne_nil _ ?_]
        · exact head?_intercalate_ne hfolder
        · -- otherwise the path to the working folder would end with the slash of the root
          intro hempty
          refine getLast?_ofPlace_ne (r := ['/']) hfolder hnil ?_
          rw [ofPlace, hempty]
          rfl
      rw [if_neg (getLast?_ofPlace_ne hfolder hnil), hroot, names_append_cons, List.foldl_append,
        foldl_enter_ofPlace hr hfolder, String.ofList_toList]

/-- **Normal absolute paths.** They are the roots with plain names behind them. -/
theorem normal_eq_self_iff {path : Text} (h : path.head? = some '/') :
    normal path = path ↔ ∃ r p, IsRoot r ∧ Place.Plain p ∧ path = ofPlace r p := by
  constructor
  · intro hnormal
    refine ⟨root path, _, isRoot_root h, Place.Plain.foldl_enter ?_ ?_, hnormal.symm⟩
    · exact List.forall_mem_nil _
    · intro name hname
      obtain ⟨segment, hsegment, rfl⟩ := List.mem_map.1 hname
      rw [String.toList_ofList] at hsegment ⊢
      exact Text.not_mem_of_mem_split hsegment
  · rintro ⟨r, p, hr, hp, rfl⟩
    exact normal_ofPlace hr hp

end Path

end TreeLint
