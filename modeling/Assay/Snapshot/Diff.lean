import Assay.Snapshot.Basic

/-! # Differences between snapshots

Comparing two trees gives the tree of the positions where they differ, or nothing. A note is
made for every composite that differs inside.
-/

namespace Assay

/-- A result together with the notes made on the way to it, which are kept also when there is
no result. -/
abbrev Noted (α : Type) := List String × Except Fault α

namespace Snapshot

/-- Stands for the value where there is none. -/
def absentText : String := "absent"

/-- Stands for a member that only the other side has. -/
def missingText : String := "no item at this key"

/-- The summary of a node, marked where the composite was met before. -/
def taggedSummary (h : Heap) (s : Snapshot) : Except Fault String :=
  (s.summary h).map fun text => if s.head.alreadyReferenced then s!"recursive {text}" else text

/-- A difference leaf with the summaries of two nodes. -/
def leafDifference (h : Heap) (expected actual : Snapshot) : Except Fault Snapshot := do
  let left ← expected.summary h
  let right ← actual.summary h
  return .difference left right expected.head.label

/-- The child under a label, which must be there. -/
def requireChild (h : Heap) (label : String) (s : Snapshot) : Except Fault Snapshot :=
  h.find (.text label) s.children

/-- The difference for a member that one side lacks. An entry keeps its key, and its value is
what is missing. -/
def missingItem (h : Heap) (missingFromExpected : Bool) (s : Snapshot) : Except Fault Snapshot :=
  let pair (text : String) (label : Value) : Snapshot :=
    if missingFromExpected then .difference missingText text label
    else .difference text missingText label
  if s.head.type == entryClass then do
    let value ← s.requireChild h "value"
    let text ← value.summary h
    let key ← s.requireChild h "key"
    return .node { label := s.head.label, type := entryClass, isLeaf := false }
      [(.text "key", key), (.text "value", pair text (.text "value"))]
  else do
    let text ← s.summary h
    return pair text s.head.label

/-- What a note calls a node: its label, or its class where the label says nothing. -/
def noteName (h : Heap) (head : Head) : Except Fault String :=
  if h.truth head.label then h.display head.label else .ok head.type

/-- A composite with differences inside. A lone change of value inside an entry is shown with
its key. -/
def composite (h : Heap) (expected : Snapshot) (differences : List (Key × Snapshot)) :
    Noted (Option Snapshot) :=
  if differences.isEmpty then ([], .ok none)
  else
    let lone := expected.head.type == entryClass &&
      differences.length == 1 && differences.all (·.1.isText "value")
    let shown : Except Fault (List (Key × Snapshot)) :=
      if lone then (expected.requireChild h "key").map fun key =>
        (.text "key", key) :: differences
      else .ok differences
    match shown with
    | .error e => ([], .error e)
    | .ok shown =>
      match noteName h expected.head with
      | .error e => ([], .error e)
      | .ok name =>
        ([s!"{shown.length} difference(s) under {name}"],
          .ok (some (.node
            { label := expected.head.label, type := expected.head.type, isLeaf := false } shown)))

/-- What two nodes give before any child is looked at; `none` sends the comparison on to
their children. -/
def compareHeads (h : Heap) (expected actual : Snapshot) :
    Option (Except Fault (Option Snapshot)) :=
  let e := expected.head
  let a := actual.head
  if e.identity.isSome && e.identity == a.identity then some (.ok none)
  else if e.type != a.type then some ((expected.leafDifference h actual).map some)
  else if e.isLeaf && a.isLeaf then
    some (match h.contentEqual e.content a.content with
      | .error f => .error f
      | .ok true => .ok none
      | .ok false => (expected.leafDifference h actual).map some)
  else if e.isLeaf || a.isLeaf then some ((expected.leafDifference h actual).map some)
  else if e.alreadyReferenced || a.alreadyReferenced then
    some (do
      let left ← expected.taggedSummary h
      let right ← actual.taggedSummary h
      return some (.difference left right e.label))
  else none

/-- A child of the expected side, together with what its comparison with a counterpart gives. -/
abbrev Candidate := Snapshot × (Snapshot → Noted (Option Snapshot))

/-- The labels that only the actual side has. -/
def extraLabels (h : Heap) (expected : List (Key × Candidate)) :
    List (Key × Snapshot) → Except Fault (List Value)
  | [] => .ok []
  | (label, _) :: rest =>
    match h.find? label.value expected with
    | .error e => .error e
    | .ok (some _) => extraLabels h expected rest
    | .ok none => (extraLabels h expected rest).map (label.value :: ·)

/-- The difference between the children under a label. A label that has changed since it was
given may lead to no child at all. -/
def compareUnder (h : Heap) (expected : List (Key × Candidate)) (actual : List (Key × Snapshot))
    (label : Value) : Noted (Option Snapshot) :=
  match h.find? label expected with
  | .error e => ([], .error e)
  | .ok left =>
    match left, h.find? label actual with
    | _, .error e => ([], .error e)
    | some (_, compare), .ok (some s) => compare s
    | some (s, _), .ok none => ([], (s.missingItem h false).map some)
    | none, .ok (some s) => ([], (s.missingItem h true).map some)
    | none, .ok none => ([], .error (.noAttribute "NoneType" "declared_type"))

/-- The differences under labels, one after the other, added to those found so far. -/
def compareLabels (h : Heap) (compare : Value → Noted (Option Snapshot)) :
    List (Key × Snapshot) → List Value → Noted (List (Key × Snapshot))
  | found, [] => ([], .ok found)
  | found, label :: rest =>
    let (notes, result) := compare label
    let found : Except Fault (List (Key × Snapshot)) :=
      match result with
      | .error e => .error e
      | .ok none => .ok found
      | .ok (some difference) => h.file found label difference
    match found with
    | .error e => (notes, .error e)
    | .ok found =>
      let (more, result) := compareLabels h compare found rest
      (notes ++ more, result)

/-- The differences between the children of two composites. -/
def compareChildren (h : Heap) (expected : List (Key × Candidate))
    (actual : List (Key × Snapshot)) : Noted (List (Key × Snapshot)) :=
  match extraLabels h expected actual with
  | .error e => ([], .error e)
  | .ok extra =>
    compareLabels h (compareUnder h expected actual) [] (expected.map (·.1.value) ++ extra)

mutual
/-- The differences between two nodes. -/
def compare (h : Heap) : Snapshot → Snapshot → Noted (Option Snapshot)
  | .node head children, actual =>
    match compareHeads h (.node head children) actual with
    | some result => ([], result)
    | none =>
      match compareChildren h (candidates h children) actual.children with
      | (notes, .error e) => (notes, .error e)
      | (notes, .ok differences) =>
        let (more, result) := composite h (.node head children) differences
        (notes ++ more, result)
/-- Children of the expected side with their comparisons. -/
def candidates (h : Heap) : List (Key × Snapshot) → List (Key × Candidate)
  | [] => []
  | (label, s) :: rest => (label, s, fun actual => compare h s actual) :: candidates h rest
end

/-- The differences between an expected snapshot and an actual one, which may be absent. -/
def diff (h : Heap) (expected : Snapshot) : Option Snapshot → Noted (Option Snapshot)
  | some actual => compare h expected actual
  | none =>
    ([], (expected.summary h).map fun text =>
      some (.difference text absentText expected.head.label))

end Snapshot

end Assay
