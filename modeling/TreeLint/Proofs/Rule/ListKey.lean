import TreeLint.Proofs.Rule.OrderedVisit
import TreeLint.Proofs.Tree.Replacement

/-!
# The verdict on a list hangs on one tag

The rule about keys finds its way from a call to the tag of a returned element by several choices:
the first argument, the body, the last statement, the first expression of it, the inside of
parentheses, the opening tag. The verdict is a function of the method that is called and of the
answer about that tag (`check_eq_keyed`), so whatever leaves the way and the tag alone leaves the
verdict alone.

* `Wrapped.keyOf?_eq` — parentheses and comments in them do not matter;
* `Regrown.keyOf?_eq` — nor does what an element holds beside its opening tag;
* `KeepsTag.answer?_eq` — nor what stands before the last statement of a block;
* `check_eq` — in ordered trees, a check highlights exactly the calls that return an element whose
  tag lacks a key (`IsUnkeyed`);
* `isUnkeyed_false_iff` — without a look at expressions, just those with a block in their callback;
* `visit_ownTag` — all of it for visits and checks.
-/

namespace TreeLint

/-- The same node under another field. -/
def Node.underField (n : Node) (field : Option String) : Node :=
  .mk { n.label with field } n.children

namespace ListKey

open Node

/-- Whether the options ask for expressions to be looked at. -/
def inspectsExpressions (o : Options) : Bool :=
  (Options.get o "inspect_expression_bodies" (.bool true)).truthy

/-- The callback of a call has a block for its body. -/
def HasBlock (n : Node) : Prop :=
  ∃ body ∈ (callback? n).bind (·.child? "body"), body.kind = "statement_block"

instance (n : Node) : Decidable (HasBlock n) :=
  inferInstanceAs (Decidable (∃ body ∈ (callback? n).bind (·.child? "body"), _))

/-! ### The way to the tag -/

/-- The expression that a body returns. -/
def returnedBy? (inspectExpressions : Bool) (body : Node) : Option Node :=
  if body.kind = "statement_block" then
    body.lastPart?.bind fun last => if last.kind = "return_statement" then last.firstPart? else none
  else if inspectExpressions then some body
  else none

/-- Whether a returned expression has a key, if it is an element in any number of parentheses. -/
def keyOf? (s : Source) (e : Node) : Option (Except RuleFailure Bool) :=
  (e.unwrapped.filter (·.isAny elementKinds)).map (hasKey s)

/-- Whether the element that a body returns has a key, if the body returns one. -/
def answer? (s : Source) (inspectExpressions : Bool) (body : Node) :
    Option (Except RuleFailure Bool) :=
  (returnedBy? inspectExpressions body).bind (keyOf? s)

/-- Whether the element that the callback of a call returns has a key, if it returns one. -/
def keyed? (s : Source) (inspectExpressions : Bool) (n : Node) :
    Option (Except RuleFailure Bool) :=
  (callback? n).bind fun callback => (callback.child? "body").bind (answer? s inspectExpressions)

section

variable {s s' : Source} {inspect : Bool} {n : Node}

theorem returned?_eq (callback : Node) :
    returned? inspect callback = (callback.child? "body").bind (returnedBy? inspect) := by
  rw [returned?]
  cases callback.child? "body" with
  | none => rfl
  | some body =>
    show (if _ then _ else _) = if _ then _ else _
    cases body.lastPart? <;> rfl

theorem map_hasKey_element? (callback : Node) :
    (element? inspect callback).map (hasKey s) =
      (callback.child? "body").bind (answer? s inspect) := by
  rw [element?, returned?_eq]
  cases callback.child? "body" with
  | none => rfl
  | some body =>
    show ((returnedBy? inspect body).bind unwrapped |>.filter _).map _ =
      (returnedBy? inspect body).bind (keyOf? s)
    cases returnedBy? inspect body <;> rfl

/-- **What a verdict hangs on**: the method that is called, and whether there is an element with or
without a key. -/
theorem check_eq_keyed :
    check s inspect n =
      match method? n with
      | none => .ok []
      | some method => do
        if !(← s.reads method "map") then
          return []
        match keyed? s inspect n with
        | none => return []
        | some isKeyed =>
          if ← isKeyed then
            return []
          return [.highlight ⟨← s.span method, info.id⟩] := by
  have hkeyed : keyed? s inspect n =
      ((callback? n).bind (element? inspect)).map (hasKey s) := by
    rw [keyed?, Option.map_bind]
    congr 1
    funext callback
    exact (map_hasKey_element? callback).symm
  rw [check, hkeyed]
  cases method? n with
  | none => rfl
  | some method => cases (callback? n).bind (element? inspect) <;> rfl

end

/-! ### The answer about an expression -/

/-- An expression in any number of parentheses, which hold nothing beside it but comments and
punctuation. The field under which it stands may change with its place. -/
inductive Wrapped (e : Node) : Node → Prop where
  | bare (field : Option String) : Wrapped e (e.underField field)
  | paren {w : Node} (l : Label) (front back : List Node) (inner : Wrapped e w)
    (kind : l.kind = "parenthesized_expression") (named : l.named = true)
    (front_aside : ∀ d ∈ front, d.isPart = false) (back_aside : ∀ d ∈ back, d.isPart = false) :
    Wrapped e (.mk l (front ++ w :: back))

/-- Two elements with one opening tag, the same parentheses around them. -/
inductive Regrown : Node → Node → Prop where
  | element (l : Label) (front front' : List Node) (tag : Node) (back back' : List Node)
    (kind : l.kind = "jsx_element") (found : IsUnder "open_tag" front tag back)
    (found' : IsUnder "open_tag" front' tag back') :
    Regrown (.mk l (front ++ tag :: back)) (.mk l (front' ++ tag :: back'))
  | paren {p p' c c' : Node} (inner : Regrown c c') (kind : p.kind = "parenthesized_expression")
    (first : Replaces IsFirstPart c c' p p') : Regrown p p'

section

variable {s : Source} {e e' p w : Node}

theorem keyOf?_paren (hkind : p.kind = "parenthesized_expression") :
    keyOf? s p = p.firstPart?.bind (keyOf? s) := by
  rw [keyOf?, unwrapped_eq, if_pos hkind]
  cases p.firstPart? <;> rfl

theorem keyOf?_of_ne_paren (hkind : e.kind ≠ "parenthesized_expression") :
    keyOf? s e = if e.isAny elementKinds then some (hasKey s e) else none := by
  rw [keyOf?, unwrapped_eq, if_neg hkind, Option.filter_some]
  split <;> rfl

theorem keyOf?_of_comment (hkind : e.kind = "comment") : keyOf? s e = none := by
  have hne : e.kind ≠ "parenthesized_expression" := by
    rw [hkind]
    decide
  have hany : e.isAny elementKinds = false := by
    rw [isAny, hkind]
    decide
  rw [keyOf?_of_ne_paren hne, hany]
  rfl

theorem hasKey_underField (field : Option String) :
    hasKey s (e.underField field) = hasKey s e := by
  by_cases hkind : e.kind = "jsx_element"
  · have htag : tag? (e.underField field) = tag? e := by
      rw [tag?, tag?, if_pos hkind]
      exact if_pos hkind
    rw [hasKey, hasKey, htag]
  · have htag : tag? (e.underField field) = some (e.underField field) := if_neg hkind
    have htag' : tag? e = some e := if_neg hkind
    rw [hasKey, hasKey, htag, htag']
    rfl

/-- The field of a node does not matter to the answer about it. -/
theorem keyOf?_underField (field : Option String) : keyOf? s (e.underField field) = keyOf? s e := by
  by_cases hkind : e.kind = "parenthesized_expression"
  · have hkind' : (e.underField field).kind = "parenthesized_expression" := hkind
    rw [keyOf?_paren hkind, keyOf?_paren hkind']
    rfl
  · have hkind' : (e.underField field).kind ≠ "parenthesized_expression" := hkind
    rw [keyOf?_of_ne_paren hkind, keyOf?_of_ne_paren hkind', hasKey_underField]
    rfl

theorem Wrapped.named (h : Wrapped e w) (hnamed : e.label.named = true) :
    w.label.named = true := by
  cases h with
  | bare => exact hnamed
  | paren _ _ _ _ _ named => exact named

/-- **Parentheses do not matter**, nor do comments in them. -/
theorem Wrapped.keyOf?_eq (h : Wrapped e w) (hnamed : e.label.named = true) :
    keyOf? s w = keyOf? s e := by
  induction h with
  | bare field => exact keyOf?_underField field
  | @paren w l front back inner kind named front_aside back_aside ih =>
    have hparen : (Node.mk l (front ++ w :: back)).kind = "parenthesized_expression" := kind
    rw [keyOf?_paren hparen, ← ih]
    by_cases hpart : w.isPart = true
    · have hfirst : IsFirstPart front w back := ⟨front_aside, hpart⟩
      rw [hfirst.firstPart?_eq]
      rfl
    · -- a named node that is no part is a comment, and then there is nothing to find on either side
      have hcomment : w.kind = "comment" := by
        simpa [isPart, inner.named hnamed] using hpart
      have hnone : (Node.mk l (front ++ w :: back)).firstPart? = none := by
        refine firstPart?_eq_none fun d hd => ?_
        obtain hd | hd := List.mem_append.1 hd
        · exact front_aside d hd
        · obtain rfl | hd := List.mem_cons.1 hd
          · exact Bool.eq_false_iff.2 hpart
          · exact back_aside d hd
      rw [hnone, keyOf?_of_comment hcomment]
      rfl

/-- **Nothing of an element matters but its opening tag.** -/
theorem Regrown.keyOf?_eq (h : Regrown e e') : keyOf? s e' = keyOf? s e := by
  induction h with
  | element l front front' tag back back' kind found found' =>
    have hkind : ∀ cs, (Node.mk l cs).kind = "jsx_element" := fun _ => kind
    have hne : ∀ cs, (Node.mk l cs).kind ≠ "parenthesized_expression" := by
      intro cs
      rw [hkind]
      decide
    have htag : tag? (.mk l (front' ++ tag :: back')) = tag? (.mk l (front ++ tag :: back)) := by
      rw [tag?, tag?, if_pos (hkind _), if_pos (hkind _), found.child?_eq, found'.child?_eq]
      rfl
    rw [keyOf?_of_ne_paren (hne _), keyOf?_of_ne_paren (hne _), hasKey, hasKey, htag]
    rfl
  | paren _ kind first ih =>
    have hkind : _ = "parenthesized_expression" := first.kind_eq.trans kind
    rw [keyOf?_paren kind, keyOf?_paren hkind, first.firstPart?_eq.1, first.firstPart?_eq.2]
    exact ih

end

/-! ### The answer about a body and a call -/

/-- The expression that a body returns is replaced by another one. -/
inductive ReplacesReturned (e e' : Node) : Node → Node → Prop where
  | block {last last' body body' : Node} (kind : body.kind = "statement_block")
    (statement : Replaces IsLastPart last last' body body')
    (returns : last.kind = "return_statement")
    (expression : Replaces IsFirstPart e e' last last') : ReplacesReturned e e' body body'
  | expression (kind : e.kind ≠ "statement_block") (kind' : e'.kind ≠ "statement_block") :
    ReplacesReturned e e' e e'

/-- A change of the body of a callback that leaves the tag of the returned element alone. -/
inductive KeepsTag : Node → Node → Prop where
  /-- The returned expression is put in parentheses. -/
  | wrap {e w body body' : Node} (returned : ReplacesReturned e w body body')
    (named : e.label.named = true) (wrapped : Wrapped e w) : KeepsTag body body'
  /-- All of the returned element is replaced but its opening tag. -/
  | regrow {e e' body body' : Node} (returned : ReplacesReturned e e' body body')
    (regrown : Regrown e e') : KeepsTag body body'
  /-- Anything is put before the last statement of a block, or taken away there. -/
  | before {l : Label} {last : Node} {back : List Node} (front front' : List Node)
    (kind : l.kind = "statement_block") (found : IsLastPart front last back) :
    KeepsTag (.mk l (front ++ last :: back)) (.mk l (front' ++ last :: back))

/-- The body of the callback of a call is replaced by another one. -/
inductive ReplacesBody (body body' call call' : Node) : Prop where
  | mk {list list' callback callback' : Node}
    (arguments : Replaces (IsUnder "arguments") list list' call call')
    (first : Replaces IsFirstPart callback callback' list list')
    (field : Replaces (IsUnder "body") body body' callback callback')

section

variable {s s' : Source} {inspect : Bool} {e e' body body' call call' : Node}

theorem answer?_of_returned (h : ReplacesReturned e e' body body')
    (hkey : keyOf? s e' = keyOf? s e) : answer? s inspect body' = answer? s inspect body := by
  cases h with
  | @block last last' _ _ kind statement returns expression =>
    have hkind' : body'.kind = "statement_block" := statement.kind_eq.trans kind
    have hreturns' : last'.kind = "return_statement" := expression.kind_eq.trans returns
    have hreturned : returnedBy? inspect body = some e := by
      rw [returnedBy?, if_pos kind, statement.lastPart?_eq.1, Option.bind_some, if_pos returns,
        expression.firstPart?_eq.1]
    have hreturned' : returnedBy? inspect body' = some e' := by
      rw [returnedBy?, if_pos hkind', statement.lastPart?_eq.2, Option.bind_some, if_pos hreturns',
        expression.firstPart?_eq.2]
    rw [answer?, answer?, hreturned, hreturned']
    exact hkey
  | expression kind kind' =>
    rw [answer?, answer?, returnedBy?, returnedBy?, if_neg kind, if_neg kind']
    cases inspect with
    | false => rfl
    | true => exact hkey

theorem KeepsTag.answer?_eq (h : KeepsTag body body') :
    answer? s inspect body' = answer? s inspect body := by
  cases h with
  | wrap returned named wrapped => exact answer?_of_returned returned (wrapped.keyOf?_eq named)
  | regrow returned regrown => exact answer?_of_returned returned regrown.keyOf?_eq
  | @before l last back front front' kind found =>
    have hreturned : ∀ cs, returnedBy? inspect (.mk l (cs ++ last :: back)) =
        if last.kind = "return_statement" then last.firstPart? else none := by
      intro cs
      have hkind : (Node.mk l (cs ++ last :: back)).kind = "statement_block" := kind
      have hlast : IsLastPart cs last back := found
      rw [returnedBy?, if_pos hkind, hlast.lastPart?_eq, Option.bind_some]
    rw [answer?, answer?, hreturned, hreturned]

theorem keyed?_of_found {list callback : Node} (hlist : call.child? "arguments" = some list)
    (hfirst : list.firstPart? = some callback) (hbody : callback.child? "body" = some body) :
    keyed? s inspect call =
      if callback.isAny callbackKinds then answer? s inspect body else none := by
  rw [keyed?, callback?, hlist, Option.bind_some, hfirst, Option.filter_some]
  split
  · rw [Option.bind_some, hbody, Option.bind_some]
  · rfl

theorem ReplacesBody.keyed?_eq (h : ReplacesBody body body' call call')
    (hanswer : answer? s inspect body' = answer? s inspect body) :
    keyed? s inspect call' = keyed? s inspect call := by
  obtain ⟨arguments, first, field⟩ := h
  rw [keyed?_of_found arguments.child?_eq.1 first.firstPart?_eq.1 field.child?_eq.1,
    keyed?_of_found arguments.child?_eq.2 first.firstPart?_eq.2 field.child?_eq.2, hanswer, isAny,
    isAny, field.kind_eq]

theorem ReplacesBody.method?_eq (h : ReplacesBody body body' call call') :
    method? call' = method? call := by
  obtain ⟨arguments, -, -⟩ := h
  rw [method?, method?, arguments.kind_eq,
    arguments.child?_of_ne (by decide : "function" ≠ "arguments")]

theorem anyKey_congr (htext : s'.text = s.text) : anyKey s' = anyKey s := by
  funext attributes
  induction attributes with
  | nil => rfl
  | cons a rest ih => rw [anyKey, anyKey, ih, Source.reads_congr htext]

/-- A check is a matter of the text and the node, not of the rest of the tree. -/
theorem check_congr (htext : s'.text = s.text) : check s' = check s := by
  have hkey : hasKey s' = hasKey s := by
    funext e
    rw [hasKey, hasKey, anyKey_congr htext]
  funext inspect n
  rw [check, check, hkey, Source.reads_congr htext, Source.span_congr htext]

/-- **The verdict on a call hangs on the tag of the element that its callback returns.** -/
theorem check_of_keepsTag (htext : s'.text = s.text) (h : ReplacesBody body body' call call')
    (hkeeps : KeepsTag body body') : check s' inspect call' = check s inspect call := by
  rw [check_congr htext, check_eq_keyed, check_eq_keyed, h.method?_eq,
    h.keyed?_eq hkeeps.answer?_eq]

end

/-! ### Which calls are highlighted -/

/-- An attribute is a key. -/
def IsKey (t : Text) (a : Node) : Prop := ∃ name ∈ a.firstPart?, name.textIn t = "key".toList

instance (t : Text) (a : Node) : Decidable (IsKey t a) :=
  inferInstanceAs (Decidable (∃ name ∈ a.firstPart?, _))

/-- A tag has a name, and none of its attributes is a key. -/
def LacksKey (t : Text) (tag : Node) : Prop :=
  tag.child? "name" ≠ none ∧ ∀ a ∈ tag.namedChildren, a.kind = "jsx_attribute" → ¬IsKey t a

instance (t : Text) (tag : Node) : Decidable (LacksKey t tag) :=
  inferInstanceAs (Decidable (_ ∧ _))

theorem lacksKey_iff {t : Text} {tag : Node} :
    LacksKey t tag ↔ tag.child? "name" ≠ none ∧
      (tag.namedChildren.filter (·.kind == "jsx_attribute")).any (IsKey t ·) = false := by
  simp [LacksKey]

/-- A call of `map` whose callback returns an element with a tag that lacks a key. -/
def IsUnkeyed (t : Text) (inspectExpressions : Bool) (n : Node) : Prop :=
  (∃ method ∈ method? n, method.textIn t = "map".toList) ∧
    ∃ element ∈ (callback? n).bind (element? inspectExpressions),
      ∃ tag ∈ tag? element, LacksKey t tag

instance (t : Text) (inspectExpressions : Bool) (n : Node) :
    Decidable (IsUnkeyed t inspectExpressions n) :=
  inferInstanceAs (Decidable (_ ∧ _))

/-- The highlight of a method. -/
def mark (t : Text) (method : Node) : Output := .highlight ⟨method.rangeIn t, info.id⟩

section

variable {t : Text} {n : Node}

/-- Without a look at expressions, just callbacks with a block return elements. -/
theorem bind_element?_false (n : Node) :
    (callback? n).bind (element? false) =
      if HasBlock n then (callback? n).bind (element? true) else none := by
  cases hcallback : callback? n with
  | none => simp
  | some callback =>
    rw [Option.bind_some, Option.bind_some, element?, element?, returned?_eq, returned?_eq]
    cases hbody : callback.child? "body" with
    | none => simp
    | some body =>
      have hiff : HasBlock n ↔ body.kind = "statement_block" := by
        simp [HasBlock, hcallback, hbody]
      rw [Option.bind_some, Option.bind_some, returnedBy?, returnedBy?]
      by_cases hkind : body.kind = "statement_block"
      · rw [if_pos hkind, if_pos hkind, if_pos (hiff.2 hkind)]
      · rw [if_neg hkind, if_neg (hiff.not.2 hkind)]
        rfl

theorem isUnkeyed_false_iff : IsUnkeyed t false n ↔ IsUnkeyed t true n ∧ HasBlock n := by
  rw [IsUnkeyed, IsUnkeyed, bind_element?_false, and_assoc]
  refine and_congr_right fun _ => ?_
  by_cases hblock : HasBlock n
  · simp [hblock]
  · simp [hblock]

end

section

variable {s : Source} (sim : Simulation 0 s s (Node.Self Node.Ordered)) {inspect : Bool} {n : Node}

include sim

theorem anyKey_eq {attributes : List Node} (h : ∀ a ∈ attributes, a.Ordered) :
    anyKey s attributes = .ok (attributes.any (IsKey s.text ·)) := by
  induction attributes with
  | nil => rfl
  | cons a rest ih =>
    have hrest := ih fun b hb => h b (List.mem_cons_of_mem a hb)
    rw [anyKey, List.any_cons]
    cases hname : a.firstPart? with
    | none =>
      have hkey : ¬IsKey s.text a := by simp [IsKey, hname]
      rw [decide_eq_false hkey]
      exact hrest
    | some name =>
      have hordered : name.Ordered :=
        Node.Self.of_rel (sim.firstPart? ⟨rfl, h a List.mem_cons_self⟩) hname
      have hkey : IsKey s.text a ↔ name.textIn s.text = "key".toList := by simp [IsKey, hname]
      show (s.reads name "key" >>= _) = _
      rw [Source.reads_eq_textIn hordered.bytes_le, hrest, decide_eq_decide.2 hkey]
      show (if (name.textIn s.text == "key".toList) = true then _ else _) = _
      by_cases hread : name.textIn s.text = "key".toList
      · rw [if_pos (beq_iff_eq.2 hread), decide_eq_true hread]
        rfl
      · rw [if_neg (beq_iff_eq.not.2 hread), decide_eq_false hread]
        rfl

theorem hasKey_eq {element : Node} (h : element.Ordered) :
    hasKey s element = .ok (!decide (∃ tag ∈ tag? element, LacksKey s.text tag)) := by
  rw [hasKey]
  cases htag : tag? element with
  | none => rfl
  | some tag =>
    have hordered : tag.Ordered := Node.Self.of_rel (rel_tag? sim ⟨rfl, h⟩) htag
    have hattributes := Node.Self.of_forall₂
      (sim.namedChildren ⟨rfl, hordered⟩ "jsx_attribute" (by decide))
    have hlacks : (∃ tag' ∈ some tag, LacksKey s.text tag') ↔ tag.child? "name" ≠ none ∧
        (tag.namedChildren.filter (·.kind == "jsx_attribute")).any (IsKey s.text ·) = false := by
      simpa using lacksKey_iff
    show (if (tag.child? "name").isNone = true then _ else anyKey s _) = _
    rw [anyKey_eq sim hattributes]
    by_cases hname : tag.child? "name" = none
    · rw [if_pos (Option.isNone_iff_eq_none.2 hname), decide_eq_false fun hfound =>
        (hlacks.1 hfound).1 hname]
      rfl
    · rw [if_neg (Option.isNone_iff_eq_none.not.2 hname)]
      cases hkeys : (tag.namedChildren.filter (·.kind == "jsx_attribute")).any (IsKey s.text ·) with
      | false => rw [decide_eq_true (hlacks.2 ⟨hname, hkeys⟩), Bool.not_true]
      | true =>
        have hnot : ¬∃ tag' ∈ some tag, LacksKey s.text tag' := by
          intro hfound
          cases hkeys.symm.trans (hlacks.1 hfound).2
        rw [decide_eq_false hnot, Bool.not_false]

/-- **What a check puts out.** -/
theorem check_eq (h : n.Ordered) :
    check s inspect n =
      .ok (if IsUnkeyed s.text inspect n then (method? n).toList.map (mark s.text) else []) := by
  rw [check]
  cases hmethod : method? n with
  | none =>
    rw [Option.toList_none, List.map_nil, ite_self]
    rfl
  | some method =>
    have hordered : method.Ordered := Node.Self.of_rel (rel_method? sim ⟨rfl, h⟩) hmethod
    show (s.reads method "map" >>= _) = _
    rw [Source.reads_eq_textIn hordered.bytes_le, Source.span_eq_rangeIn hordered.bytes_le]
    show (if (!(method.textIn s.text == "map".toList)) = true then _ else _) = _
    by_cases hmap : method.textIn s.text = "map".toList
    · rw [if_neg (by simpa using hmap)]
      cases helement : (callback? n).bind (element? inspect) with
      | none =>
        have hnot : ¬IsUnkeyed s.text inspect n := by simp [IsUnkeyed, helement]
        rw [if_neg hnot]
        rfl
      | some element =>
        have hrel := (rel_callback? sim ⟨rfl, h⟩).bind fun _ _ => rel_element? sim inspect
        have hiff : IsUnkeyed s.text inspect n ↔ ∃ tag ∈ tag? element, LacksKey s.text tag := by
          simp [IsUnkeyed, hmethod, hmap, helement]
        show (hasKey s element >>= _) = _
        rw [hasKey_eq sim (Node.Self.of_rel hrel helement)]
        by_cases hlacks : ∃ tag ∈ tag? element, LacksKey s.text tag
        · rw [if_pos (hiff.2 hlacks), decide_eq_true hlacks]
          rfl
        · rw [if_neg (hiff.not.2 hlacks), decide_eq_false hlacks]
          rfl
    · have hnot : ¬IsUnkeyed s.text inspect n := by
        rintro ⟨⟨method', hmethod', hread⟩, -⟩
        cases hmethod.symm.trans hmethod'
        exact hmap hread
      rw [if_pos (by simpa using hmap), if_neg hnot]
      rfl

end

/-! ### Visits -/

section

variable {s : Source} {root : Node}

/-- What a visit highlights, call by call. -/
theorem visit_eq_marks (hroot : s.tree = some (.rooted root)) (h : root.Ordered) (o : Options) :
    rule.visit s o =
      ⟨((root.walk.filter (IsUnkeyed s.text (inspectsExpressions o) ·)).filterMap method?).map
        fun method => .output (mark s.text method), none⟩ := by
  have sim := simulation_ordered (Source.ordered_of_root hroot h)
  have hchecks : ∀ n ∈ root.walk, check s (inspectsExpressions o) n =
      .ok (if IsUnkeyed s.text (inspectsExpressions o) n then
        (method? n).toList.map (mark s.text) else []) :=
    fun n hn => check_eq sim (h.of_mem_walk hn)
  exact Rule.visit_eq_filterMap hroot hchecks

/-- **The verdict on a list hangs on one tag.** In a tree whose nodes start before they end, the
rule highlights the methods of the calls of `map` whose callback returns an element with a tag that
lacks a key, in the order of the walk. Without a look at expressions, these are the calls among
them that have a block in their callback, and the highlights are a sublist. The result for a call
stays the same when the body of its callback is changed but the opening tag of the returned element
is left alone. -/
theorem visit_ownTag (hroot : s.tree = some (.rooted root)) (h : root.Ordered) :
    (∀ o, rule.visit s o =
      ⟨((root.walk.filter (IsUnkeyed s.text (inspectsExpressions o) ·)).filterMap method?).map
        fun method => .output (mark s.text method), none⟩) ∧
    (∀ n, IsUnkeyed s.text false n ↔ IsUnkeyed s.text true n ∧ HasBlock n) ∧
    (∀ o o', inspectsExpressions o = false → inspectsExpressions o' = true →
      (rule.visit s o).results.Sublist (rule.visit s o').results) ∧
    ∀ s' : Source, s'.text = s.text → ∀ call call' body body' : Node,
      ReplacesBody body body' call call' → KeepsTag body body' →
      ∀ inspect, check s' inspect call' = check s inspect call := by
  refine ⟨visit_eq_marks hroot h, fun n => isUnkeyed_false_iff, ?_, ?_⟩
  · intro o o' ho ho'
    -- both visits walk the same nodes, and one of them puts a stronger test to each
    rw [visit_eq_marks hroot h o, visit_eq_marks hroot h o', ho, ho']
    exact (filterMap_filter_sublist (fun _ hn => (isUnkeyed_false_iff.1 hn).1) _).map _
  · intro s' htext call call' body body' hreplaces hkeeps inspect
    exact check_of_keepsTag htext hreplaces hkeeps

end

/-- A named node. -/
def nodeAt (kind : String) (start stop : Int) (field : Option String) (children : List Node) :
    Node :=
  .mk { kind, named := true, startByte := start, endByte := stop, field } children

/-- A call of `map` with a callback of this body. -/
def mapCall (body : Node) : Node :=
  nodeAt "call_expression" 0 42 none
    [nodeAt "member_expression" 0 6 (some "function")
      [nodeAt "property_identifier" 3 6 (some "property") []],
     nodeAt "arguments" 6 42 (some "arguments")
      [nodeAt "arrow_function" 7 41 none [nodeAt "identifier" 7 8 none [], body]]]

/-- A block of statements, the last one of which returns an expression. -/
def returningBlock (front : List Node) (e : Node) : Node :=
  nodeAt "statement_block" 10 41 (some "body")
    (front ++ [nodeAt "return_statement" 11 40 none [e]])

/-- An element without a key that holds other nodes. -/
def listItem (inside : List Node) : Node :=
  nodeAt "jsx_element" 18 39 none
    (nodeAt "jsx_opening_element" 18 22 (some "open_tag")
      [nodeAt "identifier" 19 21 (some "name") []] :: inside)

/-- An element with a key. -/
def keyedItem : Node :=
  nodeAt "jsx_self_closing_element" 22 34 none
    [nodeAt "identifier" 23 24 (some "name") [],
     nodeAt "jsx_attribute" 25 32 none [nodeAt "property_identifier" 25 28 none []]]

/-- An expression in parentheses with a comment before it. -/
def inParens (e : Node) : Node :=
  nodeAt "parenthesized_expression" 18 39 none [nodeAt "comment" 18 18 none [], e]

/-- A callback that returns an element without a key around one with a key. -/
def nestedKeySource : Source where
  kind := "tsx"
  text := "xs.map(x=>\x7breturn <li><b key=\"1\"/></li>;\x7d)".toList
  tree := some (.rooted (mapCall (returningBlock [] (listItem [keyedItem]))))

/-- The key of the inner element does not count. The verdict is the same with parentheses around
the outer element, without the inner element, and with another statement before the last one. -/
theorem nestedKey_highlighted :
    (mapCall (returningBlock [] (listItem [keyedItem]))).Ordered ∧
    rule.visit nestedKeySource [] =
      ⟨[.output (.highlight ⟨⟨3, 6, by decide⟩, info.id⟩)], none⟩ ∧
    ∀ inspect,
      check nestedKeySource inspect
        (mapCall (returningBlock [] (inParens (inParens (listItem [keyedItem]))))) =
          check nestedKeySource inspect (mapCall (returningBlock [] (listItem [keyedItem]))) ∧
      check nestedKeySource inspect (mapCall (returningBlock [] (listItem []))) =
        check nestedKeySource inspect (mapCall (returningBlock [] (listItem [keyedItem]))) ∧
      check nestedKeySource inspect
        (mapCall (returningBlock [nodeAt "return_statement" 11 11 none [keyedItem]]
          (listItem [keyedItem]))) =
          check nestedKeySource inspect (mapCall (returningBlock [] (listItem [keyedItem]))) := by
  have hordered : (mapCall (returningBlock [] (listItem [keyedItem]))).Ordered := by decide
  have hbody : ∀ front e front' e', ReplacesBody (returningBlock front e) (returningBlock front' e')
      (mapCall (returningBlock front e)) (mapCall (returningBlock front' e')) := by
    intro front e front' e'
    exact ⟨.mk _ [_] [] ⟨by decide, rfl⟩ ⟨by decide, rfl⟩,
      .mk _ [] [] ⟨by simp, rfl⟩ ⟨by simp, rfl⟩, .mk _ [_] [] ⟨by decide, rfl⟩ ⟨by decide, rfl⟩⟩
  have hreturned : ∀ e e', e.isPart = true → e'.isPart = true →
      ReplacesReturned e e' (returningBlock [] e) (returningBlock [] e') := by
    intro e e' hpart hpart'
    exact .block rfl (.mk _ [] [] ⟨by simp, rfl⟩ ⟨by simp, rfl⟩) rfl
      (.mk _ [] [] ⟨by simp, hpart⟩ ⟨by simp, hpart'⟩)
  obtain ⟨-, -, -, hkeeps⟩ := visit_ownTag (s := nestedKeySource) rfl hordered
  have hparens : ∀ {w : Node}, Wrapped (listItem [keyedItem]) w →
      Wrapped (listItem [keyedItem]) (inParens w) := by
    intro w inner
    exact .paren _ [_] [] inner rfl rfl (by decide) (by simp)
  have hregrown : Regrown (listItem [keyedItem]) (listItem []) :=
    .element _ [] [] _ [keyedItem] [] rfl ⟨by simp, rfl⟩ ⟨by simp, rfl⟩
  refine ⟨hordered, ?_, ?_⟩
  · show Run.mapResults _ (Run.each (check _ _) (Node.walk _)) = _
    rw [Node.walk_eq_preorder]
    rfl
  · intro inspect
    refine ⟨?_, ?_, ?_⟩
    · exact hkeeps _ rfl _ _ _ _ (hbody _ _ _ _)
        (.wrap (hreturned _ _ rfl rfl) rfl (hparens (hparens (.bare none)))) _
    · exact hkeeps _ rfl _ _ _ _ (hbody _ _ _ _) (.regrow (hreturned _ _ rfl rfl) hregrown) _
    · exact hkeeps _ rfl _ _ _ _ (hbody _ _ _ _) (.before _ _ rfl ⟨by simp, rfl⟩) _

end ListKey

end TreeLint
