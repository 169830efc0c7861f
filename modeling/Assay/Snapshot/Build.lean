import Assay.Snapshot.Basic

/-! # Taking snapshots

A value is walked depth first. Each composite is entered where it is met first; where it is
met again there is a node without children that carries the same identity. The composites
entered are handed on from member to member, also out of a walk that fails.
-/

namespace Assay

/-- One member of a composite. -/
inductive Part where
  | item (index : Nat) (v : Value)
  | entry (key v : Value)
  | field (name v : Value)
  deriving DecidableEq, Repr

/-- The label of a sequence item. -/
def itemLabel (index : Nat) : Value := .text s!"[{index}]"

/-- The label of a mapping entry, given the text of its key. -/
def entryLabel (key : String) : Value := .text s!"entry {key}"

/-- Numbers the items of a sequence. -/
def itemsFrom : Nat → List Value → List Part
  | _, [] => []
  | index, v :: rest => .item index v :: itemsFrom (index + 1) rest

/-- Takes a step for each member that a walk yields and hands on the composites entered. The
first failure ends it. -/
def walkEach {α β : Type} (step : List Address → α → List Address × Except Fault β) :
    List Address → Walk α → List Address × Except Fault (List β)
  | seen, [] => (seen, .ok [])
  | seen, .error e :: _ => (seen, .error e)
  | seen, .ok x :: rest =>
    match step seen x with
    | (seen, .error e) => (seen, .error e)
    | (seen, .ok y) =>
      let (seen, ys) := walkEach step seen rest
      (seen, ys.map (y :: ·))

namespace Heap

/-- The members of a value, in order: shared fields come before the object's own. -/
def parts (h : Heap) : Shape → Except Fault (Walk Part)
  | .leaf => .ok []
  | .sequence _ items => .ok ((itemsFrom 0 items).map .ok)
  | .mapping _ kind entries =>
    .ok ((h.walkEntries kind entries).map (·.map fun (k, v) => .entry k v))
  | .structured a =>
    match h.sharedFields a with
    | .error e => .error e
    | .ok shared =>
      (h.fields a).map fun own =>
        (shared ++ own).map fun (name, v) => .ok (.field name.value v)

/-- Children under their labels; of two with one label the latter stays, in the place of the
former. -/
def labelled (h : Heap) (built : List (Key × Snapshot)) : Except Fault (List (Key × Snapshot)) :=
  built.foldlM (fun children (label, s) => Entries.enter (label.isFor h.equal) label s children) []

/-- The picture of one member, under its label. -/
def buildPart (h : Heap)
    (build : List Address → Value → Value → List Address × Except Fault Snapshot)
    (seen : List Address) : Part → List Address × Except Fault (Key × Snapshot)
  | .item index v =>
    let (seen, s) := build seen (itemLabel index) v
    (seen, s.map fun s => (.plain (itemLabel index), s))
  | .field name v =>
    match build seen name v with
    | (seen, .error e) => (seen, .error e)
    | (seen, .ok s) => (seen, (h.key name).map (·, s))
  | .entry key v =>
    match h.repr key with
    | .error e => (seen, .error e)
    | .ok text =>
      match build seen (.text "key") key with
      | (seen, .error e) => (seen, .error e)
      | (seen, .ok keyNode) =>
        let (seen, valueNode) := build seen (.text "value") v
        let label := entryLabel text
        (seen, valueNode.map fun valueNode =>
          (.plain label, .node { label, type := entryClass, isLeaf := false }
            [(.text "key", keyNode), (.text "value", valueNode)]))

/-- The picture of a value whose composites nest no deeper than the budget. The identity of
a composite is its address. -/
def buildWithin (h : Heap) : Nat → List Address → Value → Value →
    List Address × Except Fault Snapshot
  | 0, seen, _, _ => (seen, .error .tooDeep)
  | budget + 1, seen, label, v =>
    let shape := h.shape v
    match shape.address? with
    | none =>
      (seen, .ok (.node { label, type := h.typeOf v, isLeaf := true, content := h.freeze v } []))
    | some a =>
      let head : Head := { label, type := h.typeOf v, isLeaf := false, identity := some a }
      if seen.contains a then (seen, .ok (.node { head with alreadyReferenced := true } []))
      else
        let seen := seen ++ [a]
        match h.parts shape with
        | .error e => (seen, .error e)
        | .ok parts =>
          let (seen, built) := walkEach (h.buildPart (h.buildWithin budget)) seen parts
          (seen, (built.bind h.labelled).map (.node head))

/-- Takes a snapshot of a value and tells which composites were entered before and during
the walk. Every step down enters another composite, so one step for each object is enough. -/
def buildSnapshot (h : Heap) (seen : List Address) (label v : Value) :
    List Address × Except Fault Snapshot :=
  h.buildWithin (h.objects.size + 1) seen label v

/-- The snapshot of a value. -/
def snapshot (h : Heap) (v : Value) : Except Fault Snapshot :=
  (h.buildSnapshot [] .null v).2

end Heap

end Assay
