import TreeLint.Proofs.Position.Encoding
import TreeLint.Rule.Basic

/-!
# Spans and texts of nodes

A parser gives a node by its bytes, and a rule sees its offsets and its characters. Whatever the
bytes are, as long as they are in order, the offsets are in order and in the text (`span_eq`,
`stopOf_le`). Where both bytes are boundaries of characters, nothing is lost on the way:

* `utf8_textOf` — the UTF-8 form of the text of a node is the stretch of bytes that the parser gave;
* `span_eq_span_iff` — nodes share a span only if they share their bytes.

The main statement is `nodeText_exact`.
-/

namespace TreeLint

open Text

namespace Source

/-- The offset at which a node starts. -/
def startOf (s : Source) (n : Node) : Nat := s.index.offsetOfByte n.label.startByte

/-- The offset at which a node ends. -/
def stopOf (s : Source) (n : Node) : Nat := s.index.offsetOfByte n.label.endByte

variable (s : Source)

theorem stopOf_le (n : Node) : s.stopOf n ≤ s.text.length := by
  rw [stopOf, s.index_eq]
  exact PositionIndex.offsetOfByte_le s.text _

theorem startOf_le_stopOf {n : Node} (h : n.label.startByte ≤ n.label.endByte) :
    s.startOf n ≤ s.stopOf n := by
  rw [startOf, stopOf, s.index_eq]
  exact PositionIndex.offsetOfByte_mono s.text h

theorem stopOf_le_startOf {m n : Node} (h : m.label.endByte ≤ n.label.startByte) :
    s.stopOf m ≤ s.startOf n := by
  rw [startOf, stopOf, s.index_eq]
  exact PositionIndex.offsetOfByte_mono s.text h

/-- A node of less than two bytes has less than two characters. -/
theorem stopOf_le_succ {n : Node} (h : n.label.endByte - n.label.startByte < 2) :
    s.stopOf n ≤ s.startOf n + 1 := by
  rcases Int.le_total n.label.startByte n.label.endByte with hle | hle
  · have hadd := PositionIndex.offsetOfByte_le_add s.text hle
    rw [startOf, stopOf, s.index_eq]
    omega
  · have hmono := PositionIndex.offsetOfByte_mono s.text hle
    rw [startOf, stopOf, s.index_eq]
    omega

theorem span_eq {n : Node} (h : s.startOf n ≤ s.stopOf n) :
    s.span n = .ok ⟨s.startOf n, s.stopOf n, h⟩ := by
  have hof : OffsetRange.of (s.index.offsetOfByte n.label.startByte)
      (s.index.offsetOfByte n.label.endByte) = .ok ⟨s.startOf n, s.stopOf n, h⟩ :=
    OffsetRange.of_ok_iff.2 ⟨rfl, rfl⟩
  rw [span, hof]

/-! ### Sources of one text -/

section

variable {s s' : Source} (h : s'.text = s.text)

include h

/-- The span of a node is a matter of the text, not of the tree. -/
theorem span_congr : s'.span = s.span := by
  have hindex : s'.index = s.index := by
    rw [s'.index_eq, s.index_eq, h]
  funext n
  rw [span, span, hindex]

theorem textOf_congr : s'.textOf = s.textOf := by
  funext n
  rw [textOf, textOf, span_congr h, h]

theorem reads_congr : s'.reads = s.reads := by
  funext n word
  rw [reads, reads, textOf_congr h]

end

/-! ### The bytes of a node -/

variable {s} {m n : Node}

/-- The first byte of a node is that of its first offset, if a character starts there. -/
theorem startByte_eq (h : s.text.IsBoundary n.label.startByte) :
    n.label.startByte = byteLength (s.text.take (s.startOf n)) := by
  rw [startOf, s.index_eq]
  exact h.eq_byteLength

theorem endByte_eq (h : s.text.IsBoundary n.label.endByte) :
    n.label.endByte = byteLength (s.text.take (s.stopOf n)) := by
  rw [stopOf, s.index_eq]
  exact h.eq_byteLength

theorem textOf_eq (h : s.startOf n ≤ s.stopOf n) :
    s.textOf n = .ok (s.text.slice (s.startOf n) (s.stopOf n)) := by
  rw [textOf, s.span_eq h]
  rfl

theorem utf8_textOf (h : s.startOf n ≤ s.stopOf n) (hstart : s.text.IsBoundary n.label.startByte)
    (hend : s.text.IsBoundary n.label.endByte) :
    (s.text.slice (s.startOf n) (s.stopOf n)).utf8 =
      s.text.utf8.extract n.label.startByte.toNat n.label.endByte.toNat := by
  rw [utf8_slice s.text h, startByte_eq hstart, endByte_eq hend, Int.toNat_natCast,
    Int.toNat_natCast]

/-- Offsets on boundaries stand for one byte only, so nodes with one span have the same bytes. -/
theorem span_eq_span_iff (hm : s.startOf m ≤ s.stopOf m) (hn : s.startOf n ≤ s.stopOf n)
    (hmstart : s.text.IsBoundary m.label.startByte) (hmend : s.text.IsBoundary m.label.endByte)
    (hnstart : s.text.IsBoundary n.label.startByte) (hnend : s.text.IsBoundary n.label.endByte) :
    s.span m = s.span n ↔
      m.label.startByte = n.label.startByte ∧ m.label.endByte = n.label.endByte := by
  rw [s.span_eq hm, s.span_eq hn, Except.ok.injEq, OffsetRange.mk.injEq]
  constructor
  · rintro ⟨hstart, hstop⟩
    rw [startByte_eq hmstart, startByte_eq hnstart, endByte_eq hmend, endByte_eq hnend, hstart,
      hstop]
    exact ⟨rfl, rfl⟩
  · rintro ⟨hstart, hstop⟩
    rw [startOf, stopOf, hstart, hstop, ← startOf, ← stopOf]
    exact ⟨rfl, rfl⟩

/-- **The text of a node is what its bytes spell.** A node whose bytes are in order has a span in
the text, wherever the bytes lie. If both are boundaries of characters, the UTF-8 form of the text
of the node is the stretch between them, and another such node has the same span exactly if it has
the same bytes. -/
theorem nodeText_exact (s : Source) (n : Node) (h : n.label.startByte ≤ n.label.endByte) :
    (∃ r, s.span n = .ok r ∧ r.start ≤ r.stop ∧ r.stop ≤ s.text.length) ∧
    (s.text.IsBoundary n.label.startByte → s.text.IsBoundary n.label.endByte →
      (∃ u, s.textOf n = .ok u ∧
        u.utf8 = s.text.utf8.extract n.label.startByte.toNat n.label.endByte.toNat) ∧
      ∀ m : Node, m.label.startByte ≤ m.label.endByte →
        s.text.IsBoundary m.label.startByte → s.text.IsBoundary m.label.endByte →
        (s.span m = s.span n ↔
          m.label.startByte = n.label.startByte ∧ m.label.endByte = n.label.endByte)) := by
  have hn := s.startOf_le_stopOf h
  refine ⟨⟨_, s.span_eq hn, hn, s.stopOf_le n⟩, ?_⟩
  intro hstart hend
  refine ⟨⟨_, textOf_eq hn, utf8_textOf hn hstart hend⟩, ?_⟩
  intro m hm hmstart hmend
  exact span_eq_span_iff (s.startOf_le_stopOf hm) hn hmstart hmend hstart hend

/-- A statement with characters of two bytes. -/
def umlautSource : Source where
  kind := "ts"
  text := "é = 'ü';".toList
  tree := none

/-- The quoted text in it. -/
def quotedNode : Node := .mk { kind := "string", startByte := 5, endByte := 9 } []

/-- The name in it. -/
def nameNode : Node := .mk { kind := "identifier", startByte := 0, endByte := 2 } []

/-- The text of the quoted node has three characters and four bytes, and its span is not that of
the name. -/
theorem quotedNode_read :
    quotedNode.label.startByte ≤ quotedNode.label.endByte ∧
      umlautSource.text.IsBoundary 5 ∧ umlautSource.text.IsBoundary 9 ∧
      umlautSource.textOf quotedNode = .ok "'ü'".toList ∧
      utf8 "'ü'".toList = umlautSource.text.utf8.extract 5 9 ∧
      umlautSource.span nameNode ≠ umlautSource.span quotedNode := by
  have hstart : umlautSource.text.IsBoundary 5 := by decide
  have hend : umlautSource.text.IsBoundary 9 := by decide
  have hread : umlautSource.textOf quotedNode = .ok "'ü'".toList := by decide
  obtain ⟨⟨u, htext, hbytes⟩, hspan⟩ :=
    (nodeText_exact umlautSource quotedNode (by decide)).2 hstart hend
  rw [hread, Except.ok.injEq] at htext
  subst htext
  refine ⟨by decide, hstart, hend, hread, hbytes, ?_⟩
  rw [Ne, hspan nameNode (by decide) (by decide) (by decide)]
  decide

end Source

end TreeLint
