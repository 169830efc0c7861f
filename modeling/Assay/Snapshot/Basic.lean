import Assay.Heap.Fields
import Assay.Heap.Text

/-! # Snapshot trees

A snapshot is a finite picture of a value: leaves carry what was there, composites carry one
labelled child per member. Difference trees have the same form, with a pair of texts at
their leaves.
-/

namespace Assay

/-- What a node keeps of a value. Sets are kept as the members they had, whatever happens
to the set afterwards. -/
inductive Captured where
  | value (v : Value)
  | members (items : List Key)
  /-- Expected and actual text at one position. -/
  | difference (expected actual : String)
  deriving DecidableEq, Repr, Inhabited

/-- A node without its children. -/
structure Head where
  /-- Index, field name or entry label under the parent; null at a root. -/
  label : Value := .null
  /-- The class of the captured value. -/
  type : ClassName
  isLeaf : Bool
  /-- Unique to each composite; missing for leaves, entries and differences. -/
  identity : Option Nat := none
  /-- The composite was met earlier in the same traversal. -/
  alreadyReferenced : Bool := false
  content : Captured := .value .null
  deriving DecidableEq, Repr, Inhabited

/-- A node and its children, each under its label, in order. -/
inductive Snapshot where
  | node (head : Head) (children : List (Key × Snapshot))
  deriving Repr, Inhabited

/-- The class of the nodes that hold the key and the value of a mapping entry. -/
def entryClass : ClassName := "MappingEntry"

/-- The class of the content of difference leaves. -/
def differenceClass : ClassName := "DiffPair"

/-- How the two texts of a difference are told together. -/
def differenceText (expected actual : String) : String :=
  s!"expected {expected}, got {actual}"

namespace Heap

/-- Plain data and objects that cannot change are kept; what can change is copied. -/
def freeze (h : Heap) (v : Value) : Captured :=
  match v with
  | .ref a =>
    match (h.object a).body with
    | .octets bs => .value (.bytes bs)
    | .members _ items => .members items
    | _ => .value v
  | _ => .value v

/-- Puts what a node keeps back on a heap, as a value. -/
def thaw (h : Heap) : Captured → Heap × Value
  | .value v => (h, v)
  | .members items =>
    let (h, a) := h.alloc { cls := "frozenset", body := .members true items }
    (h, .ref a)
  | .difference expected actual =>
    let (h, a) := h.alloc
      { cls := differenceClass, attrs := [("expected", .text expected), ("actual", .text actual)] }
    (h, .ref a)

/-- Compares what two leaves keep. -/
def contentEqual (h : Heap) (x y : Captured) : Except Fault Bool :=
  match x, y with
  | .value v, .value w => h.leafEqual v w
  | .members xs, .members ys => membersEqual h.equal xs ys
  | _, _ =>
    let (h, v) := h.thaw x
    let (h, w) := h.thaw y
    h.leafEqual v w

/-- Printable text of a raw value: a pattern is shown without its flags, a member of an
enumeration by its name. -/
def summarizeValue (h : Heap) (v : Value) : Except Fault String :=
  match v with
  | .pattern source _ => .ok s!"re.compile({Text.quote source})"
  | .member m =>
    if m.transparent && m.payload matches .text _ then h.repr v else .ok s!"{m.cls}.{m.name}"
  | _ => h.repr v

/-- Printable text of what a leaf keeps. -/
def summarize (h : Heap) : Captured → Except Fault String
  | .value v => h.summarizeValue v
  | .members [] => .ok "frozenset()"
  | .members items =>
    (textAll h.repr (Key.inSetOrder items)).map fun texts =>
      "frozenset(\x7b" ++ commaList texts ++ "\x7d)"
  | .difference expected actual => .ok (differenceText expected actual)

end Heap

namespace Snapshot

def head : Snapshot → Head
  | .node head _ => head

def children : Snapshot → List (Key × Snapshot)
  | .node _ children => children

/-- The child under a label. -/
def child? (h : Heap) (label : Value) (s : Snapshot) : Except Fault (Option Snapshot) :=
  h.find? label s.children

/-- A leaf that holds the two texts of a difference. -/
def difference (expected actual : String) (label : Value) : Snapshot :=
  .node { label, type := differenceClass, isLeaf := true, content := .difference expected actual }
    []

/-- The texts of a difference leaf. -/
def difference? (s : Snapshot) : Option (String × String) :=
  match s.head.isLeaf, s.head.content with
  | true, .difference expected actual => some (expected, actual)
  | _, _ => none

/-- Printable text of a node: what a leaf keeps, or the class and identity of a composite. -/
def summary (h : Heap) (s : Snapshot) : Except Fault String :=
  if s.head.isLeaf then h.summarize s.head.content
  else match s.head.identity with
    | none => .ok s.head.type
    | some n => .ok s!"{s.head.type} {n}"

mutual
/-- This node and every descendant with its path, depth first. -/
def walk (path : List Value) : Snapshot → List (List Value × Snapshot)
  | .node head children => (path, .node head children) :: walkAll path children
/-- The walks of all children, one after the other. -/
def walkAll (path : List Value) : List (Key × Snapshot) → List (List Value × Snapshot)
  | [] => []
  | (label, s) :: rest => walk (path ++ [label.value]) s ++ walkAll path rest
end

/-- Path and texts of every difference leaf. -/
def leafDifferences (s : Snapshot) : List (List Value × String × String) :=
  (s.walk []).filterMap fun (path, found) => found.difference?.map fun pair => (path, pair)

mutual
/-- The same tree with other identities. -/
def mapIdentity (f : Nat → Nat) : Snapshot → Snapshot
  | .node head children =>
    .node { head with identity := head.identity.map f } (mapIdentityAll f children)
/-- The same children with other identities. -/
def mapIdentityAll (f : Nat → Nat) : List (Key × Snapshot) → List (Key × Snapshot)
  | [] => []
  | (label, s) :: rest => (label, mapIdentity f s) :: mapIdentityAll f rest
end

end Snapshot

/-- What a report shows of a tree. -/
inductive Tree where
  | node (label : Value) (type summary : String) (alreadyReferenced : Bool)
      (difference : Option (String × String)) (children : List Tree)
  deriving Inhabited

namespace Snapshot

mutual
/-- What a report shows of a node and its children. -/
def report (h : Heap) : Snapshot → Except Fault Tree
  | .node head children =>
    let s : Snapshot := .node head children
    match s.summary h with
    | .error e => .error e
    | .ok summary =>
      match s.difference? with
      | some pair =>
        .ok (.node head.label head.type summary head.alreadyReferenced (some pair) [])
      | none =>
        (reportAll h children).map
          (.node head.label head.type summary head.alreadyReferenced none ·)
/-- What a report shows of all children. -/
def reportAll (h : Heap) : List (Key × Snapshot) → Except Fault (List Tree)
  | [] => .ok []
  | (_, s) :: rest =>
    match report h s with
    | .error e => .error e
    | .ok tree => (reportAll h rest).map (tree :: ·)
end

end Snapshot

end Assay
