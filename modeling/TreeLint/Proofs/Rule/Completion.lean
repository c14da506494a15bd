import Mathlib.Data.List.Nodup
import TreeLint.Proofs.Report
import TreeLint.Proofs.Rule.FolderImport
import TreeLint.Proofs.Rule.Lockstep

/-!
# Which visits come to their end

A rule forms a range from the bytes of a node, and the range is refused if they are in the wrong
order. In a tree in which every node starts before it ends (`Node.Ordered`) no other thing can go
wrong, whatever the bytes are otherwise: negative, behind the text or inside of a character. The
exception is the rule about imports, which takes off two quotes: it counts bytes before and
characters after, so that a quoted path of two bytes but one character makes it fail.

`Settles P` says that a check does not fail and that its result has the property `P`. It is carried
through the steps of a check, together with the order of the nodes that the check looks at. These
are found by the questions of `TreeLint.Tree.Query` and by those of the rules. That the answers
belong to the same tree is read off the lemmas about trees that correspond, with a tree beside
itself (`Correspondence.ofHereditary`).

* `settles_check` — for each of seven rules, a check of a node in an ordered tree settles, and all
  that it puts out lies in the text;
* `exists_check_error_iff` — when the check of an import fails;
* `visit_ordered` — both for whole visits, and the engine drops nothing of what is put out.
-/

namespace TreeLint

/-! ### Checks that do not fail -/

/-- A computation comes to a result, and the result has a property. -/
def Settles {α : Type} (P : α → Prop) (x : Except RuleFailure α) : Prop := ∃ a, x = .ok a ∧ P a

namespace Settles

variable {α β : Type} {P : α → Prop} {Q : β → Prop} {x : Except RuleFailure α}

theorem ok {a : α} (h : P a) : Settles P (.ok a) := ⟨a, rfl, h⟩

theorem bind {f : α → Except RuleFailure β} (hx : Settles P x)
    (hf : ∀ a, P a → Settles Q (f a)) : Settles Q (x >>= f) := by
  obtain ⟨a, rfl, ha⟩ := hx
  exact hf a ha

theorem map {f : α → β} (hx : Settles P x) (hf : ∀ a, P a → Q (f a)) : Settles Q (x.map f) := by
  obtain ⟨a, rfl, ha⟩ := hx
  exact ⟨f a, rfl, hf a ha⟩

theorem mapM {f : β → Except RuleFailure α} {xs : List β} (h : ∀ b ∈ xs, Settles P (f b)) :
    Settles (∀ a ∈ ·, P a) (xs.mapM f) := by
  induction xs with
  | nil => exact ok (by simp)
  | cons b xs ih =>
    rw [List.mapM_cons]
    refine (h b List.mem_cons_self).bind fun a ha => ?_
    refine (ih fun c hc => h c (List.mem_cons_of_mem b hc)).bind fun as has => ?_
    exact ok (List.forall_mem_cons.2 ⟨ha, has⟩)

theorem allResults {x : Except RuleFailure (List α)} (h : Settles (∀ a ∈ ·, P a) x) :
    AllResults P x := by
  obtain ⟨as, rfl, has⟩ := h
  exact AllResults.ok has

end Settles

/-- A run fails exactly if one of its items does. -/
theorem Run.isSome_failure_each_iff {α β : Type} {f : α → Except RuleFailure (List β)}
    {xs : List α} : (Run.each f xs).failure.isSome = true ↔ ∃ x ∈ xs, ∃ e, f x = .error e := by
  induction xs with
  | nil => simp [Run.each]
  | cons x xs ih =>
    rw [Run.each]
    cases hx : f x with
    | error e => exact iff_of_true rfl ⟨x, List.mem_cons_self, e, hx⟩
    | ok ys => simp only [List.exists_mem_cons_iff, hx, reduceCtorEq, exists_false, false_or, ih]

/-- If every item settles, the run comes to its end, and all that it puts out has the property. -/
theorem Run.each_of_settles {α β : Type} {P : β → Prop} {f : α → Except RuleFailure (List β)}
    {xs : List α} (h : ∀ x ∈ xs, Settles (∀ y ∈ ·, P y) (f x)) :
    (Run.each f xs).failure = none ∧ ∀ y ∈ (Run.each f xs).results, P y := by
  constructor
  · rw [← Option.not_isSome_iff_eq_none, Run.isSome_failure_each_iff]
    rintro ⟨x, hx, e, he⟩
    obtain ⟨ys, hys, _⟩ := h x hx
    rw [he] at hys
    cases hys
  · exact Run.mem_results_each fun x hx => (h x hx).allResults

/-! ### Ordered trees -/

/-- Every node of a tree starts before it ends. -/
def Node.Ordered (root : Node) : Prop :=
  ∀ n ∈ root.walk, n.label.startByte ≤ n.label.endByte

theorem Node.Ordered.child {n c : Node} (h : n.Ordered) (hc : c ∈ n.children) : c.Ordered := by
  intro d hd
  exact h d (Node.mem_walk_of_mem_child hc hd)

/-- A node beside itself, with a property. -/
structure Node.Self (P : Node → Prop) (n n' : Node) : Prop where
  eq_self : n' = n
  holds : P n

/-- A tree corresponds to itself. If a property passes from a node to its children, then whatever
is found below a node with the property has it too. -/
theorem Correspondence.ofHereditary {P : Node → Prop}
    (h : ∀ {n c : Node}, P n → c ∈ n.children → P c) : Correspondence (Node.Self P) where
  kind hn := by rw [hn.eq_self]
  named hn := by rw [hn.eq_self]
  field hn := by rw [hn.eq_self]
  children hn := by
    rw [hn.eq_self]
    exact .of_forall₂ (List.forall₂_same.2 fun c hc => ⟨rfl, h hn.holds hc⟩)
  keyword hn _ _ := by
    rw [hn.eq_self]
    exact rel_head?_of_forall₂ (List.forall₂_same.2 fun c hc => ⟨rfl, h hn.holds hc⟩)

theorem Node.Self.of_rel {P : Node → Prop} {o : Option Node} {c : Node}
    (h : Option.Rel (Node.Self P) o o) (hc : o = some c) : P c := by
  subst hc
  cases h with
  | some hself => exact hself.holds

theorem Node.Self.of_forall₂ {P : Node → Prop} {ns : List Node}
    (h : List.Forall₂ (Node.Self P) ns ns) : ∀ n ∈ ns, P n := by
  intro n hn
  exact (List.forall₂_same.1 h n hn).holds

/-- The tree of a source, if it has a root, is ordered. -/
def Source.Ordered (s : Source) : Prop := ∀ root, s.tree = some (.rooted root) → root.Ordered

theorem simulation_ordered {s : Source} (h : s.Ordered) :
    Simulation 0 s s (Node.Self Node.Ordered) where
  toCorrespondence := .ofHereditary Node.Ordered.child
  tree := by
    cases ht : s.tree with
    | none => exact .none
    | some t =>
      cases t with
      | rootless => exact .some .rootless
      | rooted root => exact .some (.rooted ⟨rfl, h root ht⟩)
  start hn := by rw [hn.eq_self, Nat.add_zero]
  stop hn := by rw [hn.eq_self, Nat.add_zero]
  width hn := by rw [hn.eq_self]
  bytes hn hm := by rw [hn.eq_self, hm.eq_self]
  slice r _ := rfl

/-- All outputs lie in a text of a length. -/
def AllFit (length : Nat) (outs : List Output) : Prop := ∀ out ∈ outs, out.fits length = true

theorem AllFit.nil {length : Nat} : AllFit length [] := by
  intro out hout
  cases hout

theorem AllFit.singleton {length : Nat} {out : Output} (h : out.fits length = true) :
    AllFit length [out] := by
  intro out' hout'
  rw [List.mem_singleton.1 hout']
  exact h

theorem RuleInfo.fits_diagnostic (i : RuleInfo) {r : OffsetRange} {length : Nat} (message : String)
    (h : r.stop ≤ length) : (i.diagnostic r message).fits length = true := by
  have hle := r.start_le_stop
  rw [Output.fits_iff]
  show (0 : Int) ≤ r.start ∧ (r.start : Int) ≤ r.stop ∧ (r.stop : Int) ≤ length
  omega

section

variable {s : Source} {n : Node}

theorem Source.settles_span (h : n.Ordered) :
    Settles (fun r => r.stop ≤ s.text.length) (s.span n) := by
  have hle := s.startOf_le_stopOf (h n (Node.mem_walk_self n))
  exact ⟨_, s.span_eq hle, s.stopOf_le n⟩

theorem Source.settles_textOf (h : n.Ordered) : Settles (fun _ => True) (s.textOf n) :=
  (Source.settles_span h).map fun _ _ => trivial

theorem Source.settles_reads (h : n.Ordered) (word : String) :
    Settles (fun _ => True) (s.reads n word) :=
  (Source.settles_textOf h).map fun _ _ => trivial

theorem RuleInfo.settles_diagnostic (i : RuleInfo) (h : n.Ordered) (message : String) :
    Settles (AllFit s.text.length) (do return [i.diagnostic (← s.span n) message]) :=
  (Source.settles_span h).bind fun _ hr => .ok (.singleton (i.fits_diagnostic message hr))

theorem HandlerName.settles_check (stem : Option Text) (h : n.Ordered) :
    Settles (∀ f ∈ ·, f.range.stop ≤ s.text.length) (HandlerName.check s stem n) := by
  unfold HandlerName.check
  refine (Source.settles_span h).bind fun r hr => ?_
  split
  · exact .ok (by simpa using hr)
  · exact .ok (by simp)

theorem DuplicateCase.mem_of_mem_repeated {keyed : List (Text × OffsetRange)}
    {p : Text × OffsetRange} (h : p ∈ DuplicateCase.repeated keyed) : p ∈ keyed := by
  obtain ⟨key, _, hp⟩ := List.mem_flatMap.1 h
  dsimp only at hp
  split at hp
  · cases hp
  · exact List.mem_of_mem_filter hp

end

/-! ### Checks in ordered trees -/

section

variable {s : Source} (sim : Simulation 0 s s (Node.Self Node.Ordered)) {n : Node}

include sim

theorem NoAny.settles_anyType? (h : n.Ordered) :
    Settles (fun o => ∀ t, o = some t → t.Ordered) (NoAny.anyType? s n) := by
  have hrel := sim.typeUnder? ⟨rfl, h⟩ "type"
  unfold NoAny.anyType?
  cases ht : n.typeUnder? "type" with
  | none => exact .ok nofun
  | some t =>
    rw [ht] at hrel
    have htype : t.Ordered := Node.Self.of_rel hrel rfl
    refine (Source.settles_reads htype "any").bind fun isAny _ => ?_
    cases isAny with
    | false => exact .ok nofun
    | true =>
      refine .ok ?_
      intro t' ht'
      cases ht'
      exact htype

theorem NoAny.settles_check (h : n.Ordered) :
    Settles (AllFit s.text.length) (NoAny.check s n) := by
  unfold NoAny.check
  split
  · refine (NoAny.settles_anyType? sim h).bind fun o _ => ?_
    cases o with
    | none => exact .ok .nil
    | some t => exact NoAny.info.settles_diagnostic h _
  · split
    · refine (NoAny.settles_anyType? sim h).bind fun o ho => ?_
      cases o with
      | none => exact .ok .nil
      | some t => exact NoAny.info.settles_diagnostic (ho t rfl) _
    · exact .ok .nil

theorem MissingReturnType.settles_check (bodyOnly : Bool) (h : n.Ordered) :
    Settles (AllFit s.text.length) (MissingReturnType.check s bodyOnly n) := by
  unfold MissingReturnType.check
  split
  · exact .ok .nil
  · split
    · exact .ok .nil
    · cases hn : n.child? "name" with
      | none => exact .ok .nil
      | some name =>
        have hname : name.Ordered := Node.Self.of_rel (sim.child? ⟨rfl, h⟩ "name") hn
        have hfound : Settles (AllFit s.text.length)
            (do
              if MissingReturnType.returns bodyOnly n then
                return [MissingReturnType.info.diagnostic (← s.span name)
                  MissingReturnType.message]
              return []) := by
          split
          · exact MissingReturnType.info.settles_diagnostic hname _
          · exact .ok .nil
        dsimp only
        split
        · refine (Source.settles_textOf hname).bind fun text _ => ?_
          split
          · exact .ok .nil
          · exact hfound
        · exact hfound

theorem AnyReturnType.settles_check (parent : Option Node) (h : n.Ordered) :
    Settles (AllFit s.text.length) (AnyReturnType.check s parent n) := by
  unfold AnyReturnType.check
  split
  · exact .ok .nil
  · split
    · rename_i name type hn ht
      have hname : name.Ordered := Node.Self.of_rel (sim.child? ⟨rfl, h⟩ "name") hn
      have htype : type.Ordered := Node.Self.of_rel (sim.typeUnder? ⟨rfl, h⟩ "return_type") ht
      have hfound : Settles (AllFit s.text.length)
          (do
            if ← s.reads type "any" then
              return [AnyReturnType.info.diagnostic (← s.span name) AnyReturnType.message]
            return []) := by
        refine (Source.settles_reads htype "any").bind fun isAny _ => ?_
        split
        · exact AnyReturnType.info.settles_diagnostic hname _
        · exact .ok .nil
      dsimp only
      split
      · refine (Source.settles_textOf hname).bind fun text _ => ?_
        split
        · exact .ok .nil
        · exact hfound
      · exact hfound
    · exact .ok .nil

theorem SwitchDefault.settles_check (h : n.Ordered) :
    Settles (AllFit s.text.length) (SwitchDefault.check s n) := by
  unfold SwitchDefault.check
  cases hw : SwitchDefault.keyword? n with
  | none => exact .ok .nil
  | some word =>
    have hword : word.Ordered := Node.Self.of_rel (SwitchDefault.rel_keyword? sim ⟨rfl, h⟩) hw
    exact SwitchDefault.info.settles_diagnostic hword _

theorem DuplicateCase.settles_check (h : n.Ordered) :
    Settles (AllFit s.text.length) (DuplicateCase.check s n) := by
  have hconditions : ∀ c ∈ DuplicateCase.conditions n, c.Ordered :=
    Node.Self.of_forall₂ (DuplicateCase.forall₂_conditions sim ⟨rfl, h⟩)
  unfold DuplicateCase.check
  refine (Settles.mapM fun c hc => Source.settles_span (hconditions c hc)).bind ?_
  intro ranges hranges
  refine .ok ?_
  intro out hout
  obtain ⟨p, hp, rfl⟩ := List.mem_map.1 hout
  obtain ⟨r, hr, rfl⟩ := List.mem_map.1 (DuplicateCase.mem_of_mem_repeated hp)
  exact DuplicateCase.info.fits_diagnostic _ (hranges r hr)

theorem ListKey.settles_anyKey {attributes : List Node} (h : ∀ a ∈ attributes, a.Ordered) :
    Settles (fun _ => True) (ListKey.anyKey s attributes) := by
  induction attributes with
  | nil => exact .ok trivial
  | cons a rest ih =>
    have hrest := ih fun b hb => h b (List.mem_cons_of_mem a hb)
    rw [ListKey.anyKey]
    cases hp : a.firstPart? with
    | none => exact hrest
    | some name =>
      have hname : name.Ordered :=
        Node.Self.of_rel (sim.firstPart? ⟨rfl, h a List.mem_cons_self⟩) hp
      refine (Source.settles_reads hname "key").bind fun isKey _ => ?_
      split
      · exact .ok trivial
      · exact hrest

theorem ListKey.settles_hasKey (h : n.Ordered) :
    Settles (fun _ => True) (ListKey.hasKey s n) := by
  unfold ListKey.hasKey
  cases ht : ListKey.tag? n with
  | none => exact .ok trivial
  | some tag =>
    have htag : tag.Ordered := Node.Self.of_rel (ListKey.rel_tag? sim ⟨rfl, h⟩) ht
    have hattributes := Node.Self.of_forall₂
      (sim.namedChildren ⟨rfl, htag⟩ "jsx_attribute" (by decide))
    dsimp only
    split
    · exact .ok trivial
    · exact ListKey.settles_anyKey sim hattributes

theorem ListKey.settles_check (inspectExpressions : Bool) (h : n.Ordered) :
    Settles (AllFit s.text.length) (ListKey.check s inspectExpressions n) := by
  unfold ListKey.check
  cases hm : ListKey.method? n with
  | none => exact .ok .nil
  | some method =>
    have hmethod : method.Ordered := Node.Self.of_rel (ListKey.rel_method? sim ⟨rfl, h⟩) hm
    refine (Source.settles_reads hmethod "map").bind fun isMap _ => ?_
    split
    · exact .ok .nil
    · have hrel := (ListKey.rel_callback? sim ⟨rfl, h⟩).bind
        fun _ _ => ListKey.rel_element? sim inspectExpressions
      cases he : (ListKey.callback? n).bind (ListKey.element? inspectExpressions) with
      | none => exact .ok .nil
      | some element =>
        have helement : element.Ordered := Node.Self.of_rel hrel he
        refine (ListKey.settles_hasKey sim helement).bind fun keyed _ => ?_
        split
        · exact .ok .nil
        · refine (Source.settles_span hmethod).bind fun r hr => .ok (.singleton ?_)
          exact ListKey.info.fits_diagnostic "" hr

end

/-! ### The check of an import -/

namespace FolderImport

variable {s : Source} {n : Node}

/-- The suffixes to skip are given as a string or as a list of strings, or not given at all. -/
def TakesStrings (o : Options) : Prop :=
  let option := Options.get o "skip_suffixes" defaultSuffixes
  option.isString = true ∨ option.isStringList = true

theorem suffixes_of_takesStrings {o : Options} (h : TakesStrings o) :
    ∃ skipped, suffixes (Options.get o "skip_suffixes" defaultSuffixes) = .ok skipped ∧
      ∀ v ∈ skipped, v.isString = true := by
  unfold TakesStrings at h
  generalize Options.get o "skip_suffixes" defaultSuffixes = option at h
  unfold suffixes
  split
  · exact ⟨[], rfl, by simp⟩
  · rcases h with hstring | hlist
    · unfold Value.isString at hstring
      split at hstring
      · exact ⟨[_], rfl, by simp [Value.isString, Value.str]⟩
      · exact ⟨[_], rfl, by simp [Value.isString]⟩
      · cases hstring
    · unfold Value.isStringList at hlist
      split at hlist
      · exact ⟨_, rfl, List.all_eq_true.1 hlist⟩
      · cases hlist

/-- Whether a path ends with a value, if the value is a string. -/
def endsIn? (path : Text) : Value → Option Bool
  | .scalar (.str s) => some (s.toList.isSuffixOf path)
  | .scalar (.halves codes) => some (codes.isSuffixOf path.toCodes)
  | _ => none

theorem isSkipped_cons (path : Text) (v : Value) (rest : List Value) :
    isSkipped path (v :: rest) =
      match endsIn? path v with
      | some true => .ok true
      | some false => isSkipped path rest
      | none => .error .option := by
  cases v with
  | scalar a =>
    cases a with
    | str s =>
      rw [isSkipped, endsIn?]
      cases s.toList.isSuffixOf path <;> rfl
    | halves codes =>
      rw [isSkipped, endsIn?]
      cases codes.isSuffixOf path.toCodes <;> rfl
    | _ => rfl
  | _ => rfl

theorem isSome_endsIn? (path : Text) (v : Value) : (endsIn? path v).isSome = v.isString := by
  cases v with
  | scalar a => cases a <;> rfl
  | _ => rfl

/-- Strings can always be compared. -/
theorem isSkipped_of_strings (path : Text) {skipped : List Value}
    (h : ∀ v ∈ skipped, v.isString = true) :
    isSkipped path skipped = .ok (skipped.any fun v => endsIn? path v == some true) := by
  induction skipped with
  | nil => rfl
  | cons v rest ih =>
    obtain ⟨hv, hrest⟩ := List.forall_mem_cons.1 h
    rw [← isSome_endsIn? path] at hv
    obtain ⟨b, hb⟩ := Option.isSome_iff_exists.1 hv
    rw [isSkipped_cons, hb, List.any_cons, hb, ih hrest]
    cases b <;> rfl

theorem isSkipped_texts (path : Text) (ts : List String) :
    isSkipped path (ts.map Value.str) = .ok (ts.any fun t => t.toList.isSuffixOf path) := by
  rw [isSkipped_of_strings path (by simp [Value.str, Value.isString]), List.any_map]
  congr 2
  funext t
  show (some (t.toList.isSuffixOf path) == some true) = t.toList.isSuffixOf path
  cases t.toList.isSuffixOf path <;> rfl

/-- What is reported for a path lies between its quotes, the closing one included. -/
theorem allFit_report (inner : OffsetRange) (h : inner.stop + 1 ≤ s.text.length) :
    AllFit s.text.length (report inner (inner.slice s.text)) := by
  have hlen : inner.start + (inner.slice s.text).length = inner.stop := by
    have hle := inner.start_le_stop
    rw [OffsetRange.slice, Text.length_slice]
    omega
  intro out hout
  rw [report, List.mem_append] at hout
  rcases hout with hfile | hdotted
  · split at hfile
    · rw [List.mem_singleton.1 hfile]
      refine info.fits_diagnostic _ ?_
      show inner.start + (inner.slice s.text).length + 1 ≤ s.text.length
      omega
    · cases hfile
  · split at hdotted
    · have hle := inner.start_le_stop
      rw [List.mem_singleton.1 hdotted, Output.fits_iff]
      show (0 : Int) ≤ inner.start ∧ (inner.start : Int) ≤ inner.stop ∧
        (inner.stop : Int) ≤ s.text.length
      omega
    · cases hdotted

theorem pathNode?_eq_some_iff {c : Node} :
    pathNode? n = some c ↔ n.kind = "import_statement" ∧ n.child? "source" = some c ∧
      c.kind = "string" ∧ 2 ≤ c.label.endByte - c.label.startByte := by
  unfold pathNode?
  split
  · rename_i hkind
    simp [Option.filter_eq_some_iff, hkind]
  · rename_i hkind
    simp [hkind]

theorem startOf_le_of_pathNode? {c : Node} (h : pathNode? n = some c) :
    s.startOf c ≤ s.stopOf c := by
  obtain ⟨-, -, -, hbytes⟩ := pathNode?_eq_some_iff.1 h
  exact s.startOf_le_stopOf (by omega)

/-- Whatever comes of an import lies in the text. -/
theorem allResults_fit_check (skipped : List Value) :
    AllResults (fun out => out.fits s.text.length = true) (check s skipped n) := by
  cases hp : pathNode? n with
  | none =>
    rw [check, hp]
    exact AllResults.nil
  | some c =>
    rcases Nat.lt_or_ge (s.stopOf c) (s.startOf c + 2) with hshort | hlong
    · have herr : ∃ e, check s skipped n = .error e :=
        check_of_short hp (startOf_le_of_pathNode? hp) hshort
      obtain ⟨e, he⟩ := herr
      rw [he]
      exact AllResults.error e
    · rw [check_of_long hp hlong]
      cases isSkipped (pathOf s c) skipped with
      | error e => exact AllResults.error e
      | ok skip =>
        cases skip with
        | true => exact AllResults.nil
        | false =>
          have hstop : s.stopOf c - 1 + 1 ≤ s.text.length := by
            have hle := s.stopOf_le c
            omega
          exact AllResults.ok
            (allFit_report ⟨s.startOf c + 1, s.stopOf c - 1, by omega⟩ hstop)

/-- **When the check of an import fails.** The quotes of the path are two bytes but less than two
characters. -/
theorem exists_check_error_iff {skipped : List Value} (h : ∀ v ∈ skipped, v.isString = true) :
    (∃ e, check s skipped n = .error e) ↔
      ∃ c, pathNode? n = some c ∧ s.stopOf c < s.startOf c + 2 := by
  cases hp : pathNode? n with
  | none =>
    have hnothing : check s skipped n = .ok [] := by
      rw [check, hp]
      rfl
    simp [hnothing]
  | some c =>
    rcases Nat.lt_or_ge (s.stopOf c) (s.startOf c + 2) with hshort | hlong
    · exact iff_of_true (check_of_short hp (startOf_le_of_pathNode? hp) hshort) ⟨c, rfl, hshort⟩
    · rw [check_of_long hp hlong, isSkipped_of_strings (pathOf s c) h]
      have hok : ¬∃ c', some c = some c' ∧ s.stopOf c' < s.startOf c' + 2 := by
        rintro ⟨c', hc', hshort⟩
        cases hc'
        omega
      refine iff_of_false ?_ hok
      rintro ⟨e, he⟩
      generalize skipped.any _ = skip at he
      cases skip <;> cases he

end FolderImport

/-! ### Visits -/

section

variable {s : Source} {root : Node} (hroot : s.tree = some (.rooted root)) {o : Options}

include hroot

theorem Source.each_eq {α β : Type} (list : Node → List α) (f : α → Except RuleFailure (List β)) :
    s.each list f = Run.each f (list root) := by
  rw [Source.each, hroot]

theorem Source.ordered_of_root (h : root.Ordered) : s.Ordered := by
  intro root' hroot'
  rw [hroot] at hroot'
  cases hroot'
  exact h

omit hroot in
/-- A visit comes to its end, and all that it puts out lies in the text. -/
structure Rule.Completes (rule : Rule) (s : Source) (o : Options) : Prop where
  failure_eq : (rule.visit s o).failure = none
  fits : ∀ y ∈ (rule.visit s o).results, ∃ out, y = .output out ∧ out.fits s.text.length = true

omit hroot in
theorem Rule.completes_ofOutputs {i : RuleInfo} {visit : Source → Options → Run Output}
    (h : (visit s o).failure = none ∧
      ∀ out ∈ (visit s o).results, out.fits s.text.length = true) :
    (Rule.ofOutputs i visit).Completes s o where
  failure_eq := h.1
  fits := by
    intro y hy
    obtain ⟨out, hout, rfl⟩ := List.mem_map.1 hy
    exact ⟨out, rfl, h.2 out hout⟩

omit hroot in
theorem HandlerName.mem_of_mem_firsts {met : List (Int × Int)} {found : List Finding} {f : Finding}
    (h : f ∈ HandlerName.firsts met found) : f ∈ found := by
  induction found generalizing met with
  | nil => cases h
  | cons g rest ih =>
    rw [HandlerName.firsts] at h
    split at h
    · exact List.mem_cons_of_mem g (ih h)
    · rcases List.mem_cons.1 h with rfl | hrest
      · exact List.mem_cons_self
      · exact List.mem_cons_of_mem g (ih hrest)

theorem HandlerName.visit_eq :
    HandlerName.rule.visit s o = Run.mapResults (List.map Yield.output)
      (match HandlerName.stem o with
      | .error e => { failure := some e }
      | .ok stem => HandlerName.outputs s stem) := by
  have htree : ¬s.tree.isNone = true := by
    rw [hroot]
    exact Bool.false_ne_true
  exact congrArg (Run.mapResults _) (if_neg htree)

theorem HandlerName.completes_outputs (h : root.Ordered) (stem : Option Text) :
    (HandlerName.outputs s stem).failure = none ∧
      ∀ out ∈ (HandlerName.outputs s stem).results, out.fits s.text.length = true := by
  have sim := simulation_ordered (Source.ordered_of_root hroot h)
  have hnames : ∀ name ∈ HandlerName.names root, name.Ordered :=
    Node.Self.of_forall₂ (HandlerName.forall₂_names sim ⟨rfl, h⟩)
  obtain ⟨hends, hfits⟩ := Run.each_of_settles fun name hname =>
    HandlerName.settles_check (s := s) stem (hnames name hname)
  rw [HandlerName.outputs, Source.each_eq hroot]
  refine ⟨hends, ?_⟩
  intro out hout
  obtain ⟨f, hf, rfl⟩ := List.mem_map.1 hout
  exact HandlerName.info.fits_diagnostic _ (hfits f (HandlerName.mem_of_mem_firsts hf))

theorem HandlerName.failure_eq (h : root.Ordered)
    (ho : (HandlerName.given o).isShowable = true) :
    (HandlerName.rule.visit s o).failure = none := by
  rw [HandlerName.visit_eq hroot, HandlerName.stem, if_pos ho]
  exact (HandlerName.completes_outputs hroot h _).1

theorem HandlerName.fits_of_mem_results (h : root.Ordered) :
    ∀ y ∈ (HandlerName.rule.visit s o).results,
      ∃ out, y = .output out ∧ out.fits s.text.length = true := by
  intro y hy
  rw [HandlerName.visit_eq hroot] at hy
  obtain ⟨out, hout, rfl⟩ := List.mem_map.1 hy
  refine ⟨out, rfl, ?_⟩
  cases hstem : HandlerName.stem o with
  | error e =>
    rw [hstem] at hout
    cases hout
  | ok stem =>
    rw [hstem] at hout
    exact (HandlerName.completes_outputs hroot h stem).2 out hout

/-- **Six rules always come to their end**: all but those that may find fault with an option or
with the width of a path. -/
theorem completes_builtIn (h : root.Ordered) :
    ∀ rule ∈ builtInRules, rule.id ≠ FolderImport.rule.id → rule.id ≠ HandlerName.rule.id →
      rule.Completes s o := by
  have sim := simulation_ordered (Source.ordered_of_root hroot h)
  have hwalk : ∀ n ∈ root.walk, n.Ordered := fun n hn d hd => h d (Node.mem_walk_trans hn hd)
  have heach : ∀ {i : RuleInfo} {f : Source → Options → Node → Except RuleFailure (List Output)},
      (∀ n, n.Ordered → Settles (AllFit s.text.length) (f s o n)) →
      (Rule.ofOutputs i fun s o => s.eachNode (f s o)).Completes s o := by
    intro i f hf
    refine Rule.completes_ofOutputs ?_
    rw [Source.eachNode, Source.each_eq hroot]
    exact Run.each_of_settles fun n hn => hf n (hwalk n hn)
  simp only [builtInRules, List.forall_mem_cons]
  refine ⟨fun _ _ => ?_, fun _ _ => ?_, fun _ _ => ?_, fun hne => absurd rfl hne,
    fun _ hne => absurd rfl hne, fun _ _ => ?_, fun _ _ => ?_, fun _ _ => ?_, by simp⟩
  · exact heach fun n => NoAny.settles_check sim
  · exact heach fun n => MissingReturnType.settles_check sim _
  · refine Rule.completes_ofOutputs ?_
    rw [Source.each_eq hroot]
    refine Run.each_of_settles fun p hp => AnyReturnType.settles_check sim p.1 (hwalk p.2 ?_)
    rw [← Node.map_snd_walkWithParent]
    exact List.mem_map_of_mem hp
  · exact heach fun n => SwitchDefault.settles_check sim
  · exact heach fun n => DuplicateCase.settles_check sim
  · exact heach fun n => ListKey.settles_check sim _

theorem FolderImport.fits_of_mem_results :
    ∀ y ∈ (FolderImport.rule.visit s o).results,
      ∃ out, y = .output out ∧ out.fits s.text.length = true := by
  intro y hy
  rw [FolderImport.visit_eq hroot] at hy
  obtain ⟨out, hout, rfl⟩ := List.mem_map.1 hy
  refine ⟨out, rfl, ?_⟩
  cases hsuf : FolderImport.suffixes (Options.get o "skip_suffixes" FolderImport.defaultSuffixes)
    with
  | error e =>
    rw [hsuf] at hout
    cases hout
  | ok skipped =>
    rw [hsuf] at hout
    exact Run.mem_results_each (fun n _ => FolderImport.allResults_fit_check skipped) out hout

theorem FolderImport.isSome_failure_iff (ho : FolderImport.TakesStrings o) :
    (FolderImport.rule.visit s o).failure.isSome = true ↔
      ∃ n ∈ root.walk, n.kind = "import_statement" ∧ ∃ c, n.child? "source" = some c ∧
        c.kind = "string" ∧ 2 ≤ c.label.endByte - c.label.startByte ∧
        s.stopOf c < s.startOf c + 2 := by
  obtain ⟨skipped, hskipped, hstrings⟩ := FolderImport.suffixes_of_takesStrings ho
  rw [FolderImport.visit_eq hroot, hskipped, Run.mapResults, Run.isSome_failure_each_iff]
  refine exists_congr fun n => and_congr_right fun _ => ?_
  rw [FolderImport.exists_check_error_iff hstrings]
  simp only [FolderImport.pathNode?_eq_some_iff, and_assoc, exists_and_left]

omit hroot in
/-- Built-in rules are told apart by their names. -/
theorem eq_of_id_eq {rule rule' : Rule} (h : rule ∈ builtInRules) (h' : rule' ∈ builtInRules)
    (hid : rule.id = rule'.id) : rule = rule' :=
  List.inj_on_of_nodup_map nodup_ids_builtInRules h h' hid

theorem fits_of_mem_results (h : root.Ordered) :
    ∀ rule ∈ builtInRules, ∀ y ∈ (rule.visit s o).results,
      ∃ out, y = .output out ∧ out.fits s.text.length = true := by
  intro rule hrule
  by_cases himports : rule.id = FolderImport.rule.id
  · rw [eq_of_id_eq hrule (by simp [builtInRules]) himports]
    exact FolderImport.fits_of_mem_results hroot
  · by_cases hnames : rule.id = HandlerName.rule.id
    · rw [eq_of_id_eq hrule (by simp [builtInRules]) hnames]
      exact HandlerName.fits_of_mem_results hroot h
    · exact (completes_builtIn hroot h rule hrule himports hnames).fits

/-- Seven rules come to their end if the stem of handler names can be shown. -/
theorem failure_eq_builtIn (h : root.Ordered) (ho : (HandlerName.given o).isShowable = true) :
    ∀ rule ∈ builtInRules, rule.id ≠ FolderImport.rule.id →
      (rule.visit s o).failure = none := by
  intro rule hrule himports
  by_cases hnames : rule.id = HandlerName.rule.id
  · rw [eq_of_id_eq hrule (by simp [builtInRules]) hnames]
    exact HandlerName.failure_eq hroot h ho
  · exact (completes_builtIn hroot h rule hrule himports hnames).failure_eq

end

/-! ### What the engine keeps -/

theorem exists_outputs_of_fits {length : Nat} {ys : List Yield}
    (h : ∀ y ∈ ys, ∃ out, y = .output out ∧ out.fits length = true) :
    ∃ outs : List Output, ys = outs.map .output ∧ AllFit length outs := by
  induction ys with
  | nil => exact ⟨[], rfl, .nil⟩
  | cons y ys ih =>
    obtain ⟨out, rfl, hout⟩ := h y List.mem_cons_self
    obtain ⟨outs, rfl, houts⟩ := ih fun z hz => h z (List.mem_cons_of_mem _ hz)
    exact ⟨out :: outs, rfl, List.forall_mem_cons.2 ⟨hout, houts⟩⟩

/-- Outputs that lie in the text are kept without a warning. -/
theorem Engine.keepFitting_of_allFit (ruleId : String) {length : Nat} {outs : List Output}
    (h : AllFit length outs) : keepFitting ruleId length (outs.map .output) = pure outs := by
  induction outs with
  | nil => rfl
  | cons out outs ih =>
    rw [List.map_cons, keepFitting, if_pos (h out List.mem_cons_self),
      ih fun o ho => h o (List.mem_cons_of_mem out ho)]
    rfl

/-- **When visits fail, and where their outputs lie.** In a tree whose nodes start before they end,
wherever that is, and with suffixes given as strings:

* all built-in rules but the one about imports come to their end if the stem of handler names can
  be shown, as every string can (`Value.isShowable_of_isString`);
* that one fails exactly if there is an import whose quoted path takes two bytes or more and less
  than two characters;
* whatever a rule puts out, before it fails too, lies in the text, so that the engine keeps all
  outputs of a visit that came to its end and warns of none. -/
theorem visit_ordered {s : Source} {root : Node} (hroot : s.tree = some (.rooted root))
    (h : root.Ordered) {o : Options} (ho : FolderImport.TakesStrings o) :
    ((HandlerName.given o).isShowable = true → ∀ rule ∈ builtInRules,
      rule.id ≠ FolderImport.rule.id → (rule.visit s o).failure = none) ∧
    ((FolderImport.rule.visit s o).failure.isSome = true ↔
      ∃ n ∈ root.walk, n.kind = "import_statement" ∧ ∃ c, n.child? "source" = some c ∧
        c.kind = "string" ∧ 2 ≤ c.label.endByte - c.label.startByte ∧
        s.stopOf c < s.startOf c + 2) ∧
    ∀ rule ∈ builtInRules, ∃ outs : List Output,
      (rule.visit s o).results = outs.map .output ∧
      (∀ out ∈ outs, 0 ≤ out.start ∧ out.start ≤ out.stop ∧ out.stop ≤ s.text.length) ∧
      ((rule.visit s o).failure = none → Engine.runRule rule s o = pure outs) := by
  refine ⟨failure_eq_builtIn hroot h,
    FolderImport.isSome_failure_iff hroot ho, ?_⟩
  intro rule hrule
  obtain ⟨outs, houts, hfit⟩ := exists_outputs_of_fits (fits_of_mem_results hroot h rule hrule)
  refine ⟨outs, houts, fun out hout => Output.fits_iff.1 (hfit out hout), ?_⟩
  intro hends
  rw [Engine.runRule]
  simp only [hends, houts]
  exact Engine.keepFitting_of_allFit rule.id hfit

/-- A quoted path that is one character of two bytes. -/
def narrowPath : Node :=
  .mk { kind := "string", named := true, startByte := 7, endByte := 9, field := some "source" } []

/-- The import of this path. -/
def narrowImport : Node :=
  .mk { kind := "import_statement", named := true, startByte := 0, endByte := 9 } [narrowPath]

/-- The import, and a switch statement whose keyword starts inside of that character and ends far
behind the text. -/
def narrowRoot : Node :=
  .mk { kind := "program", named := true, startByte := -3, endByte := 400 }
    [narrowImport,
      .mk { kind := "switch_statement", named := true, startByte := 8, endByte := 400 }
        [.mk { kind := "switch", startByte := 8, endByte := 300 } [],
          .mk { kind := "switch_body", named := true, startByte := 300, endByte := 300,
                field := some "body" } []]]

/-- The text with this tree. -/
def narrowSource : Source where
  kind := "ts"
  text := "import é".toList
  tree := some (.rooted narrowRoot)

/-- The rule about imports fails, and the one about handler names does not. The one about switches
reports the only character that its keyword has in the text, and the engine keeps the report. -/
theorem narrowSource_visited :
    narrowRoot.Ordered ∧
    (FolderImport.rule.visit narrowSource []).failure.isSome = true ∧
    (HandlerName.rule.visit narrowSource []).failure = none ∧
    Engine.runRule SwitchDefault.rule narrowSource [] =
      pure [SwitchDefault.info.diagnostic ⟨7, 8, by decide⟩ SwitchDefault.message] := by
  have hordered : narrowRoot.Ordered := by
    unfold Node.Ordered
    rw [Node.walk_eq_preorder]
    decide
  have hstrings : FolderImport.TakesStrings [] := Or.inr rfl
  have hshowable : (HandlerName.given []).isShowable = true := Value.isShowable_of_isString rfl
  obtain ⟨hends, himport, houtputs⟩ := visit_ordered (s := narrowSource) rfl hordered hstrings
  refine ⟨hordered, ?_, hends hshowable HandlerName.rule (by simp [builtInRules]) (by decide), ?_⟩
  · have hmem : narrowImport ∈ narrowRoot.walk := by
      rw [Node.walk_eq_preorder]
      exact .tail _ (.head _)
    exact himport.2 ⟨narrowImport, hmem, rfl, narrowPath, rfl, rfl, by decide, by decide⟩
  · have hvisit : SwitchDefault.rule.visit narrowSource [] =
        ⟨[.output (SwitchDefault.info.diagnostic ⟨7, 8, by decide⟩ SwitchDefault.message)],
          none⟩ := by
      show Run.mapResults _ (Run.each (SwitchDefault.check _) (Node.walk _)) = _
      rw [Node.walk_eq_preorder]
      rfl
    obtain ⟨outs, houts, -, hkept⟩ := houtputs SwitchDefault.rule (by simp [builtInRules])
    have hone : outs =
        [SwitchDefault.info.diagnostic ⟨7, 8, by decide⟩ SwitchDefault.message] := by
      rw [hvisit] at houts
      cases outs with
      | nil => cases houts
      | cons out rest =>
        cases rest with
        | nil =>
          cases houts
          rfl
        | cons _ _ => cases houts
    rw [hkept (by rw [hvisit]), hone]

end TreeLint
