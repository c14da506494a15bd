import TreeLint.HostString
import TreeLint.Proofs.Engine.Bounds
import TreeLint.Proofs.Text.Codes
import TreeLint.Rule.Scripted

/-!
# Analyses of host strings

A string that can be encoded is a text, and everything is as for the text: its analysis
(`analyzeCodes_toCodes`), its edits (`applyCodes_toCodes`) and its report (`ofCodes_toCodes`). Any
other string has an empty analysis, if it has one at all (`eq_empty_of_analyzeCodes`), and edits of
that leave it as it is. But it has no tables of positions, and so the report fails that should
show an empty analysis (`exists_error_of_not_encodable`).

The main statement is `analyzeCodes_reportable`.
-/

namespace TreeLint

open Attempt

variable {codes : List Nat} {t : Text}

/-! ### Encoding -/

theorem encode_toCodes (t : Text) : Text.encode t.toCodes = .ok t := by
  rw [Text.encode, Text.ofCodes?_toCodes]

theorem exists_error_of_encode (h : Text.ofCodes? codes = none) :
    ∃ err, Text.encode codes = .error err := by
  rw [Text.encode, h]
  exact ⟨_, rfl⟩

theorem encode_char (c : Char) : Text.encode [c.toNat] = .ok [c] := encode_toCodes [c]

/-- The tables of a string that is a text are those of the text. -/
theorem positionIndex_toCodes (t : Text) :
    PositionIndex.ofCodes t.toCodes = .ok (.ofText t) := by
  have hchars : t.toCodes.mapM (fun n => Text.encode [n]) = .ok (t.map fun c => [c]) := by
    induction t with
    | nil => rfl
    | cons c t ih =>
      show List.mapM (fun n => Text.encode [n]) (c.toNat :: Text.toCodes t) = _
      rw [List.mapM_cons, encode_char, ih]
      rfl
  have hflat : (t.map fun c => [c]).flatten = t := by
    rw [← List.flatMap_def, List.flatMap_singleton']
  rw [PositionIndex.ofCodes, hchars]
  show Except.ok (PositionIndex.ofText (t.map fun c => [c]).flatten) = _
  rw [hflat]

/-- A string that cannot be encoded has no tables. -/
theorem exists_error_of_positionIndex (h : Text.ofCodes? codes = none) :
    ∃ err, PositionIndex.ofCodes codes = .error err := by
  have hchars : ∃ err, codes.mapM (fun n => Text.encode [n]) = .error err := by
    induction codes with
    | nil => cases h
    | cons n codes ih =>
      rw [List.mapM_cons]
      by_cases hn : n.isValidChar
      · have hrest : Text.ofCodes? codes = none := by
          rw [Text.ofCodes?_cons, if_pos hn] at h
          exact Option.map_eq_none_iff.1 h
        obtain ⟨err, herr⟩ := ih hrest
        have hfirst : Text.encode [n] = .ok [Char.ofNat n] := by
          rw [← encode_char, Text.toNat_ofNat hn]
        rw [hfirst, herr]
        exact ⟨err, rfl⟩
      · have hfirst : Text.ofCodes? [n] = none := by rw [Text.ofCodes?_cons, if_neg hn]
        obtain ⟨err, herr⟩ := exists_error_of_encode hfirst
        rw [herr]
        exact ⟨err, rfl⟩
  obtain ⟨err, herr⟩ := hchars
  rw [PositionIndex.ofCodes, herr]
  exact ⟨err, rfl⟩

/-! ### Reports -/

theorem ofCodes_toCodes (t : Text) (a : Analysis) :
    Report.ofCodes t.toCodes a = (Report.ofAnalysis (.ofText t) a).mapError .range := by
  rw [Report.ofCodes, positionIndex_toCodes]
  rfl

/-- There is no report on a string that cannot be encoded. -/
theorem exists_error_of_not_encodable (h : Text.ofCodes? codes = none) (a : Analysis) :
    ∃ err, Report.ofCodes codes a = .error (.encoding err) := by
  obtain ⟨err, herr⟩ := exists_error_of_positionIndex h
  rw [Report.ofCodes, herr]
  exact ⟨err, rfl⟩

/-! ### Edits -/

theorem replaceCodesIn_toCodes (e : Edit) (t : Text) :
    e.replaceCodesIn t.toCodes = (e.replaceIn t).toCodes := by
  simp only [Edit.replaceCodesIn, Edit.replaceIn, Text.toCodes, List.map_append, List.map_take,
    List.map_drop]

theorem foldr_replaceCodesIn_toCodes (ordered : List Edit) (t : Text) :
    ordered.foldr Edit.replaceCodesIn t.toCodes = (Edit.replaceAll ordered t).toCodes := by
  induction ordered with
  | nil => rfl
  | cons e rest ih => rw [List.foldr_cons, ih, replaceCodesIn_toCodes, Edit.replaceAll_cons]

/-- Edits of a string that is a text are edits of the text. -/
theorem applyCodes_toCodes (t : Text) (edits : List Edit) :
    Edit.applyCodes t.toCodes edits = (Edit.applyAll t edits).map Text.toCodes := by
  rw [Edit.applyCodes, Edit.applyAll, Edit.validate, Text.length_toCodes]
  cases Edit.validateIn t.length edits with
  | error err => rfl
  | ok ordered => exact congrArg Except.ok (foldr_replaceCodesIn_toCodes ordered t)

theorem applyCodes_nil (codes : List Nat) : Edit.applyCodes codes [] = .ok codes := by
  simp [Edit.applyCodes, Edit.validateIn, Edit.firstMeeting, Except.map]

/-! ### Analyses -/

namespace Engine

variable {e : Engine} {c : Config} {name : Option String} {answer : ParserAnswer} {a : Analysis}

theorem analyzeCodes_toCodes (e : Engine) (c : Config) (t : Text) (name : Option String)
    (answer : ParserAnswer) :
    e.analyzeCodes c t.toCodes name answer = e.analyze c t name answer := by
  rw [analyzeCodes, encode_toCodes]

/-- Without bytes there is no tree. -/
theorem parse_withoutBytes (e : Engine) (answer : ParserAnswer) {kind : FileKind}
    (hkind : FileKind.ofName name = .ok kind) (reason : String) :
    ∃ err, (e.frontend.parse kind (e.withoutBytes name answer reason)).1 = .error err := by
  simp only [withoutBytes, hkind]
  cases hprepare : e.frontend.prepare kind answer with
  | error err => exact ⟨err, by simp only [Frontend.parse, hprepare]⟩
  | ok f =>
    simp only [Frontend.parse]
    cases e.frontend.prepare kind (.failed reason) with
    | error err => exact ⟨err, rfl⟩
    | ok f => exact ⟨.failed reason, rfl⟩

/-- **A string that cannot be encoded has an empty analysis**, if it has one. -/
theorem eq_empty_of_analyzeCodes (hcodes : Text.ofCodes? codes = none)
    (h : (e.analyzeCodes c codes name answer).1.result = .ok a) : a = {} := by
  obtain ⟨err, herr⟩ := exists_error_of_encode hcodes
  rw [analyzeCodes, herr] at h
  simp only [analyze] at h
  cases hkind : FileKind.ofName name with
  | error err =>
    simp only [hkind] at h
    cases h
  | ok kind =>
    cases hrules : e.rulesFor c kind with
    | error err =>
      simp only [hkind, hrules] at h
      cases h
    | ok rules =>
      obtain ⟨failure, hparse⟩ := e.parse_withoutBytes answer hkind err.message
      simp only [hkind, hrules, hparse] at h
      obtain ⟨_, _, h⟩ := result_bind_eq_ok.1 h
      cases h
      rfl

/-- **What an analysis of a string reports can be used.** Whatever the rules yield and the
configuration holds, once there is a result

* all that it holds lies in the string;
* a report can be given exactly if the string is a text. It shows all that was found, with valid
  ranges that say in lines and columns what the offsets say. Otherwise nothing was found, and the
  report fails all the same, as the string cannot be encoded;
* applying the edits never fails because of a single one, and fails because of two exactly when
  two of them are in conflict. -/
theorem analyzeCodes_reportable (h : (e.analyzeCodes c codes name answer).1.result = .ok a) :
    (∀ o ∈ a.outputs, 0 ≤ o.start ∧ o.start ≤ o.stop ∧ o.stop ≤ codes.length) ∧
    (∀ t : Text, codes = t.toCodes → ∃ report, Report.ofCodes codes a = .ok report ∧
      List.Forall₂ (Report.Shows t) a.outputs (Report.items report)) ∧
    ((¬∃ t : Text, codes = t.toCodes) →
      a = {} ∧ ∃ err, Report.ofCodes codes a = .error (.encoding err)) ∧
    (∀ x n, Edit.applyCodes codes a.edits ≠ .error (.outside x n)) ∧
    ((∃ x y, Edit.applyCodes codes a.edits = .error (.overlapping x y)) ↔
      Edit.SomeConflict a.edits) := by
  cases hcodes : Text.ofCodes? codes with
  | some t =>
    obtain rfl := Text.ofCodes?_eq_some_iff.1 hcodes
    rw [analyzeCodes_toCodes] at h
    obtain ⟨hbounds, ⟨report, hreport, hshows⟩, houtside, hoverlap⟩ := analyze_reportable h
    rw [Text.length_toCodes, applyCodes_toCodes]
    refine ⟨hbounds, ?_, fun hnone => absurd ⟨t, rfl⟩ hnone, ?_, ?_⟩
    · intro u hu
      rw [← Text.toCodes_inj.1 hu]
      refine ⟨report, ?_, hshows⟩
      rw [ofCodes_toCodes, hreport]
      rfl
    · intro x n hx
      cases happly : Edit.applyAll t a.edits with
      | error err =>
        rw [happly] at hx
        cases hx
        exact houtside x n happly
      | ok u =>
        rw [happly] at hx
        cases hx
    · rw [← hoverlap]
      refine exists_congr fun x => exists_congr fun y => ?_
      cases Edit.applyAll t a.edits with
      | error err => exact ⟨fun hx => by cases hx; rfl, fun hx => by cases hx; rfl⟩
      | ok u => exact ⟨nofun, nofun⟩
  | none =>
    obtain rfl := eq_empty_of_analyzeCodes hcodes h
    have hconflict : ¬Edit.SomeConflict [] := by
      rintro ⟨i, j, x, y, -, hx, -⟩
      cases hx
    refine ⟨by simp [Analysis.outputs], ?_, fun _ => ⟨rfl, exists_error_of_not_encodable hcodes _⟩,
      ?_, ?_⟩
    · rintro t rfl
      rw [Text.ofCodes?_toCodes] at hcodes
      cases hcodes
    · intro x n hx
      cases (applyCodes_nil codes).symm.trans hx
    · refine iff_of_false ?_ hconflict
      rintro ⟨x, y, hx⟩
      cases (applyCodes_nil codes).symm.trans hx

/-- A rule that inserts twice at the end of a short text, edits far behind it, and reports the
break between two lines. -/
def doublingRule : Rule :=
  .scripted { id := "test.doubling", category := "test" }
    [.edit ⟨4, 4, "x".toList, "test.doubling"⟩, .edit ⟨4, 4, "y".toList, "test.doubling"⟩,
      .edit ⟨9, 2, [], "test.doubling"⟩, .own 1 3 "break"]

/-- A configuration of odd values: a text for the patterns, a number for a flag, and a list for
the severities. -/
def oddConfig : Config where
  enabledRules := .str "*"
  highlightDiagnostics := .int 1
  ruleSeverities := .list []

/-- Two lines. -/
def brokenText : Text := "a\r\nb".toList

/-- What the rule reports on two lines under that configuration. -/
def doublingAnalysis : Analysis where
  diagnostics := [⟨⟨1, 3, by decide⟩, "break", "test.doubling", "error"⟩]
  highlights := [⟨⟨1, 3, by decide⟩, "test.doubling"⟩]
  edits := [⟨4, 4, "x".toList, "test.doubling"⟩, ⟨4, 4, "y".toList, "test.doubling"⟩]

/-- The engine with this rule. -/
def doublingEngine : Engine where
  registry := { rules := [doublingRule] }

theorem rulesFor_doublingEngine : doublingEngine.rulesFor oddConfig .ts = .ok [doublingRule] := by
  have hselect : Registry.select? [.str "*"] [doublingRule] = some [doublingRule] := by
    simpa [Glob.matchesText_star] using Registry.select?_strings ["*"] [doublingRule]
  have henabled : doublingEngine.registry.enabledBy? oddConfig.enabledRules "ts" =
      some [doublingRule] := hselect
  simp only [rulesFor, FileKind.name, henabled]

/-- The parser's answer for these lines. -/
def brokenAnswer : ParserAnswer :=
  .tree (.rooted (.mk { kind := "program", startByte := 0, endByte := 4 } []))

theorem result_analyze_brokenText :
    (doublingEngine.analyzeCodes oddConfig brokenText.toCodes (some "ts") brokenAnswer).1.result =
      .ok doublingAnalysis := by
  have hkind : FileKind.ofName (some "ts") = .ok .ts := rfl
  rw [analyzeCodes_toCodes]
  unfold analyze
  simp only [hkind, rulesFor_doublingEngine]
  rfl

/-- Half of a character. -/
def halfString : List Nat := [0xd800]

theorem result_analyze_halfString :
    (doublingEngine.analyzeCodes oddConfig halfString (some "ts") brokenAnswer).1.result =
      .ok {} := by
  have hkind : FileKind.ofName (some "ts") = .ok .ts := rfl
  have hencode : Text.encode halfString = .error ⟨0, halfString⟩ := by decide
  simp only [analyzeCodes, hencode, analyze, hkind, rulesFor_doublingEngine]
  rfl

/-- The edit that ends before it starts is dropped. The two insertions are in conflict, and that is
what applying the edits fails for. The same rule finds nothing in half of a character, and there
the report fails. -/
theorem doublingAnalysis_conflicts :
    (doublingEngine.analyzeCodes oddConfig brokenText.toCodes (some "ts") brokenAnswer).1.result =
      .ok doublingAnalysis ∧
    (∃ x y, Edit.applyCodes brokenText.toCodes doublingAnalysis.edits =
      .error (.overlapping x y)) ∧
    (∃ report, Report.ofCodes brokenText.toCodes doublingAnalysis = .ok report ∧
      List.Forall₂ (Report.Shows brokenText) doublingAnalysis.outputs (Report.items report)) ∧
    (doublingEngine.analyzeCodes oddConfig halfString (some "ts") brokenAnswer).1.result =
      .ok {} ∧
    ∃ err, Report.ofCodes halfString {} = .error (.encoding err) := by
  obtain ⟨-, hreport, -, -, hoverlap⟩ := analyzeCodes_reportable result_analyze_brokenText
  obtain ⟨-, -, hhalf, -, -⟩ := analyzeCodes_reportable result_analyze_halfString
  have hnone : ¬∃ t : Text, halfString = t.toCodes := by
    rintro ⟨t, ht⟩
    cases (Text.ofCodes?_eq_some_iff.2 ht).symm.trans (rfl : Text.ofCodes? halfString = none)
  exact ⟨result_analyze_brokenText, hoverlap.2 ⟨0, 1, _, _, by decide, rfl, rfl, by decide⟩,
    hreport _ rfl, result_analyze_halfString, (hhalf hnone).2⟩

end Engine

end TreeLint
