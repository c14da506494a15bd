import TreeLint.Value.Loop
import TreeLint.Yaml.Binary
import TreeLint.Yaml.Kind
import TreeLint.Yaml.Number
import TreeLint.Yaml.Timestamp

/-!
# Nodes of a YAML document

A node is a scalar, a sequence or a mapping of some kind. It carries what it stands for, its
`Meaning`, which is made up of those of its parts. So a node that is named by an anchor and put in
many places is made only once.

A document is given its meaning level by level: first the top node, then its parts, then the parts
of these. Of several faults the one on the highest level comes first, and on one level the first
in the order of the text. A collection that has the wrong form for its kind shows this a level
below itself, like a fault in its parts.

A mapping may take over the entries of others, which stand under the key `<<`: its own entries
come behind them and win.
-/

namespace TreeLint

namespace Yaml

/-! ### Meanings -/

/-- What a node stands for. If there is a fault, with the level below the node where it comes up,
the value does not count. -/
structure Meaning where
  value : Value
  fault : Option (Nat × Fault) := none
deriving Repr

namespace Meaning

/-- The fault that comes up first: the one on the higher level, or else the one before the
other. -/
def firstFault : Option (Nat × Fault) → Option (Nat × Fault) → Option (Nat × Fault)
  | some a, some b => if b.1 < a.1 then some b else some a
  | some a, none => some a
  | none, b => b

/-- A fault as it is seen from one level above. -/
def below (fault : Option (Nat × Fault)) : Option (Nat × Fault) := fault.map fun f => (f.1 + 1, f.2)

/-- A node with a fault at once. -/
def ofFault (f : Fault) : Meaning := ⟨.null, some (0, f)⟩

/-- A collection that has the wrong form. -/
def misformed : Meaning := ⟨.null, some (1, .malformed)⟩

/-- What a result stands for. -/
def ofExcept : Except Fault Value → Meaning
  | .ok v => ⟨v, none⟩
  | .error f => ofFault f

end Meaning

/-! ### Nodes -/

/-- A node. -/
inductive Node where
  | scalar (kind : Kind) (text : Text) (meaning : Meaning)
  | sequence (kind : Kind) (items : List Node) (meaning : Meaning)
  /-- A mapping: its pairs as they are written; the pairs with those of other mappings merged in,
  if this can be done; and its own text, if it has one. -/
  | mapping (kind : Kind) (pairs : List (Node × Node)) (merged : Option (List (Node × Node)))
      (text : Option Text) (meaning : Meaning)
  /-- A collection inside itself, by its name. -/
  | loop (name : Text) (isMapping : Bool)
deriving Repr

namespace Node

/-- The kind of a node. -/
def kind : Node → Kind
  | .scalar k _ _ | .sequence k _ _ | .mapping k _ _ _ _ => k
  | .loop _ isMapping => if isMapping then .map else .seq

/-- What a node stands for. Inside itself a collection is told by its brackets. -/
def meaning : Node → Meaning
  | .scalar _ _ m | .sequence _ _ m | .mapping _ _ _ _ m => m
  | .loop name isMapping => ⟨.within (some (String.ofList name)) isMapping, none⟩

/-- The text of a node: that of a scalar, or the own text of a mapping. -/
def text? : Node → Option Text
  | .scalar _ t _ => some t
  | .mapping _ _ _ t _ => t
  | .sequence _ _ _ | .loop _ _ => none

/-- The pairs that a mapping has, those that are merged in among them. -/
def mergedPairs? : Node → Option (List (Node × Node))
  | .mapping _ _ merged _ _ => merged
  | .loop _ true => some []
  | _ => none

end Node

/-! ### Scalars -/

/-- The string with a text, in which halves of characters may be written. -/
def stringOf (t : Text) : Scalar :=
  let codes := Text.codes t
  match Text.ofCodes? codes with
  | some t => .str (String.ofList t)
  | none => .halves codes

/-- The truth value that a word stands for. -/
def truthOf? (t : Text) : Option Bool :=
  [("yes", true), ("no", false), ("true", true), ("false", false), ("on", true),
    ("off", false)].lookup (String.ofList (Text.lower t))

/-- The value of a text of some kind; `plain` tells whether it is the text of a scalar. A
collection has no text. -/
def valueOfText (kind : Kind) (plain : Bool) (t : Text) : Except Fault Value :=
  match kind with
  | .null => .ok .null
  | .bool =>
    match truthOf? t with
    | some b => .ok (.bool b)
    | none => .error .noTruthValue
  | .int => (intOfText t).map .int
  | .float => (floatOfText t).map fun x => .scalar (.float x)
  | .str => .ok (.scalar (stringOf t))
  | .binary =>
    match bytesOfText? t with
    | some bs => .ok (.scalar (.foreign { shown := bytesDisplay bs, truthy := !bs.isEmpty }))
    | none => .error .malformed
  | .timestamp =>
    if plain then
      (Timestamp.ofText t).map fun d => .scalar (.foreign { shown := d.display, text := d.text })
    else .error .dateOfMapping
  | _ => .error .malformed

namespace Kind

/-- Whether the nodes of a kind are collections. -/
def isCollection : Kind → Bool
  | .seq | .map | .set | .omap | .pairs => true
  | _ => false

end Kind

namespace Node

/-- A scalar. -/
def ofScalar (kind : Kind) (t : Text) : Node :=
  .scalar kind t <|
    if kind.isCollection then .misformed else .ofExcept (valueOfText kind true t)

/-! ### Sequences -/

/-- What the items of a sequence stand for. -/
def itemsMeaning : List Node → List Value × Option (Nat × Fault)
  | [] => ([], none)
  | x :: xs =>
    let (vs, fault) := itemsMeaning xs
    (x.meaning.value :: vs, Meaning.firstFault (Meaning.below x.meaning.fault) fault)

/-- What the pairs in a sequence stand for. Each has to be a mapping with one entry. -/
def pairsMeaning : List Node → List Value × Option (Nat × Fault)
  | [] => ([], none)
  | .mapping _ [(k, v)] _ _ _ :: xs =>
    let (vs, fault) := pairsMeaning xs
    let here := Meaning.firstFault (Meaning.below k.meaning.fault) (Meaning.below v.meaning.fault)
    (.pair k.meaning.value v.meaning.value :: vs, Meaning.firstFault here fault)
  | _ :: _ => ([], some (1, .malformed))

/-- A sequence. -/
def ofItems (kind : Kind) (xs : List Node) : Node :=
  .sequence kind xs <|
    match kind with
    | .seq =>
      let (vs, fault) := itemsMeaning xs
      ⟨.list vs, fault⟩
    | .omap | .pairs =>
      let (vs, fault) := pairsMeaning xs
      ⟨.list vs, fault⟩
    | .map | .set => .misformed
    | _ => .ofFault .malformed

/-! ### Mappings -/

/-- The pairs that stand under the mark for merging: those of a mapping, or of all mappings in a
sequence, of which the first wins. -/
def pairsToMerge? : Node → Option (List (Node × Node))
  | .sequence _ xs _ => (xs.mapM mergedPairs?).map fun pss => pss.reverse.flatten
  | .loop _ _ => some []
  | n => n.mergedPairs?

/-- Sort the pairs of a mapping into those that are merged in and its own. -/
def splitPairs? : List (Node × Node) → Option (List (Node × Node) × List (Node × Node))
  | [] => some ([], [])
  | (k, v) :: ps =>
    if k.kind = .merge then do
      let here ← v.pairsToMerge?
      let (others, own) ← splitPairs? ps
      return (here ++ others, own)
    else do
      let (others, own) ← splitPairs? ps
      return (others, (k, v) :: own)

/-- The own text of a mapping, which stands under the mark for it. -/
def ownText? : List (Node × Node) → Option Text
  | [] => none
  | (k, v) :: ps => if k.kind = .value then v.text? else ownText? ps

/-- What a key stands for. The mark for the own text is a string, and a collection is no key. -/
def key (n : Node) : Except Fault Scalar :=
  match n, n.kind with
  | .loop _ _, _ => .error .malformed
  | n, .value =>
    match n.text? with
    | some t => .ok (stringOf t)
    | none => .error .malformed
  | n, kind =>
    if kind.isCollection then .error .malformed
    else
      match n.meaning with
      | ⟨_, some (_, f)⟩ => .error f
      | ⟨.scalar s, none⟩ => .ok s
      | _ => .error .malformed

/-- What the pairs of a mapping stand for, in order, and the first fault. -/
def entriesMeaning : List (Node × Node) → Entries × Option (Nat × Fault)
  | [] => ([], none)
  | (k, v) :: ps =>
    let (es, fault) := entriesMeaning ps
    let fault := Meaning.firstFault (Meaning.below v.meaning.fault) fault
    match k.key with
    | .ok s => ((s, v.meaning.value) :: es, fault)
    | .error f => (es, Meaning.firstFault (some (1, f)) fault)

/-- A set with these members. -/
def setOf (members : List Scalar) : Foreign where
  shown :=
    if members.isEmpty then "set()"
    else "\x7b" ++ ", ".intercalate (members.map Scalar.display) ++ "\x7d"
  truthy := !members.isEmpty
  showable := members.all Scalar.isShowable

/-- What a mapping of some kind stands for. Of two entries with one key the last counts. -/
def mappingMeaning (kind : Kind) (merged : Option (List (Node × Node))) (text : Option Text) :
    Meaning :=
  match kind, merged, text with
  | .map, some ps, _ =>
    let (es, fault) := entriesMeaning ps
    ⟨.map (Entries.update [] es), fault⟩
  | .set, some ps, _ =>
    let (es, fault) := entriesMeaning ps
    ⟨.scalar (.foreign (setOf ((Entries.update [] es).map Prod.fst))), fault⟩
  | .map, none, _ | .set, none, _ | .seq, _, _ | .omap, _, _ | .pairs, _, _ => .misformed
  | _, _, some t => .ofExcept (valueOfText kind false t)
  | _, _, none => .ofFault .malformed

/-- A mapping. -/
def ofPairs (kind : Kind) (ps : List (Node × Node)) : Node :=
  let merged := (splitPairs? ps).map fun s => s.1 ++ s.2
  let text := ownText? ps
  .mapping kind ps merged text (mappingMeaning kind merged text)

end Node

end Yaml

end TreeLint
