import Assay.Heap.Listing
import Assay.Likeness
import Assay.Log
import Assay.Script.Literal
import Assay.Snapshot.Diff

/-! # A bench for snapshots

Values are made and changed, snapshots are taken, kept under names and compared. Requests are
carried out one after the other on a bench, and each has an answer or fails.
-/

namespace Assay.Script

/-- A side of a comparison: a kept snapshot with a path into it, or a value that a snapshot is
taken of on the spot. -/
inductive Side where
  | kept (name : String) (path : List Value)
  | value (l : Literal)

/-- Requests to the bench. -/
inductive Request where
  | bind (l : Literal)
  | change (target : Literal) (c : Change Literal)
  /-- Takes a snapshot; the composites that count as entered can be kept under a name. -/
  | snap (l : Literal) (label : Value) (name seen : Option String)
  | tree (s : Side)
  /-- Compares two sides, of which the actual one may be absent. -/
  | diff (expected : Side) (actual : Option Side) (name : Option String)
  /-- Asks for likeness, or for likeness both ways. -/
  | like (l r : Literal) (both : Bool) (seen : List Literal)
  | leafEqual (l r : Literal)
  | classify (l : Literal)
  | fields (l : Literal)
  | summarize (l : Literal)
  | difference (expected actual : String) (label : Value) (name : Option String)
  /-- A node made by hand. -/
  | node (head : Head) (content : Literal) (children : List (Value × Side)) (name : Option String)

/-- Path and texts of a difference leaf. -/
abbrev LeafDifference := List Value × String × String

inductive Answer where
  | nothing
  | snapshot (tree : Tree) (summary : String) (walk : List (String × Head))
  | tree (t : Option Tree)
  | difference (t : Option Tree) (leaves : List LeafDifference)
  /-- There is no snapshot to compare. -/
  | noSnapshot
  | verdict (b : Bool)
  | verdicts (there back : Bool)
  | kind (k : Kind) (type : ClassName)
  | fields (own shared : Listing)
  | text (s : String)
  | pair (tree : Tree) (isDifference : Bool) (text summary : String)
      (leaves : List LeafDifference)
  | node (tree : Tree) (isDifference : Bool) (type : ClassName)

structure Bench where
  memory : Memory
  /-- Snapshots by name, latest first; the result of a comparison may be none. -/
  kept : List (Option String × Option Snapshot) := []
  /-- Composites that count as entered, by name. -/
  seen : List (String × List Address) := []
  log : Array Note := #[]

/-- A request on its way. -/
abbrev Working := ExceptT Fault (StateM Bench)

namespace Working

/-- Works in memory. -/
def onMemory {α : Type} (make : Making α) : Working α := do
  let b ← get
  let (result, memory) := make.run b.memory
  set { b with memory }
  ofExcept result

def make (l : Literal) : Working Value := onMemory l.make

def heap : Working Heap := do return (← get).memory.heap

/-- Takes a snapshot, numbered, given the composites that count as entered. -/
def capture (seen : List Address) (label v : Value) :
    Working (List Address × Except Fault Snapshot) := do
  let b ← get
  let (memory, seen, result) := b.memory.captureFrom seen label v
  set { b with memory }
  return (seen, result.map memory.numbered)

def keep (name : Option String) (s : Option Snapshot) : Working Unit :=
  modify fun b => { b with kept := (name, s) :: b.kept }

/-- Follows a path of labels down a snapshot. -/
def descend (h : Heap) : Option Snapshot → List Value → Except Fault (Option Snapshot)
  | s, [] => .ok s
  | some s, label :: rest => do descend h (← s.child? h label) rest
  | none, _ :: _ => .error (.noAttribute "NoneType" "child")

/-- The snapshot of a side, if there is one. -/
def side : Side → Working (Option Snapshot)
  | .kept name path => do
    let b ← get
    match Entries.lookup (· == ·) (some name) b.kept with
    | some s => ofExcept (descend b.memory.heap s path)
    | none => throw (.keyError (.text name))
  | .value l => do
    let v ← make l
    let (_, result) ← capture [] .null v
    return some (← ofExcept result)

/-- What the labels of a node made by hand stand for, each label once. -/
def sides (made : List (Key × Option Snapshot)) :
    List (Value × Side) → Working (List (Key × Option Snapshot))
  | [] => return made
  | (label, s) :: rest => do
    let child ← side s
    sides (← ofExcept ((← heap).file made label child)) rest

/-- The child nodes of a node made by hand, which must all be there. -/
def children (labels : List (Value × Side)) : Working (List (Key × Snapshot)) := do
  (← sides [] labels).mapM fun (label, child) =>
    match child with
    | some child => return (label, child)
    | none => throw (.noAttribute "NoneType" "to_dict")

/-- The report of a tree. -/
def report (s : Snapshot) : Working Tree := do ofExcept (s.report (← heap))

def reportEach : Option Snapshot → Working (Option Tree)
  | none => return none
  | some s => do return some (← report s)

/-- Every node with its path on one line. -/
def walkLines (s : Snapshot) : Working (List (String × Head)) := do
  let h ← heap
  (s.walk []).mapM fun (path, found) => do
    let labels ← ofExcept (path.mapM h.display)
    return ("/".intercalate labels, found.head)

/-- Carries out a comparison and makes the notes it gives. -/
def comparing (expected : Snapshot) (actual : Option Snapshot) : Working (Option Snapshot) := do
  let (notes, result) := expected.diff (← heap) actual
  let more := notes.map fun text => { level := .debug, channel := .difference, text : Note }
  modify fun b => { b with log := b.log ++ more.toArray }
  ofExcept result

def leavesOf : Option Snapshot → List LeafDifference
  | none => []
  | some s => s.leafDifferences

/-- The composites among values. -/
def addresses (vs : List Value) : List Address :=
  vs.filterMap fun v => match v with
    | .ref a => some a
    | _ => none

/-- Takes a snapshot, keeps it and tells about it. -/
def snap (l : Literal) (label : Value) (name seen : Option String) : Working Answer := do
  let v ← make l
  let b ← get
  let entered := (seen.bind fun set => Entries.lookup (· == ·) set b.seen).getD []
  let (entered, result) ← capture entered label v
  if let some set := seen then modify fun b => { b with seen := (set, entered) :: b.seen }
  let s ← ofExcept result
  keep name s
  let tree ← report s
  let summary ← ofExcept (s.summary (← heap))
  return .snapshot tree summary (← walkLines s)

/-- Compares two sides and keeps the result. -/
def diff (expected : Side) (actual : Option Side) (name : Option String) : Working Answer := do
  let expected ← side expected
  let actual ← match actual with
    | some s => side s
    | none => pure none
  match expected with
  | none => return .noSnapshot
  | some expected =>
    let found ← comparing expected actual
    keep name found
    return .difference (← reportEach found) (leavesOf found)

/-- Carries out a request. -/
def answer : Request → Working Answer
  | .bind l => do
    let _ ← make l
    return .nothing
  | .change target c => do
    onMemory do
      let target ← target.make
      let c ← c.traverse Literal.make
      let m ← get
      set { m with heap := ← ofExcept (m.heap.change target c) }
    return .nothing
  | .snap l label name seen => snap l label name seen
  | .tree s => do return .tree (← reportEach (← side s))
  | .diff expected actual name => diff expected actual name
  | .like l r both seen => do
    let l ← make l
    let r ← make r
    let seen ← seen.mapM make
    let h ← heap
    let there ← ofExcept (h.likeFrom (addresses seen) l r)
    if both then return .verdicts there (← ofExcept (h.like r l))
    else return .verdict there
  | .leafEqual l r => do
    let l ← make l
    let r ← make r
    return .verdict (← ofExcept ((← heap).leafEqual l r))
  | .classify l => do
    let v ← make l
    let h ← heap
    return .kind (h.kind v) (h.typeOf v)
  | .fields l => do
    let v ← make l
    let h ← heap
    return .fields (← ofExcept (h.listFields v)) (← ofExcept (h.listShared v))
  | .summarize l => do
    let v ← make l
    return .text (← ofExcept ((← heap).summarizeValue v))
  | .difference expected actual label name => do
    let s := Snapshot.difference expected actual label
    keep name s
    let text := differenceText expected actual
    return .pair (← report s) true text text s.leafDifferences
  | .node head content children name => do
    let content ← make content
    let nodes ← Working.children children
    let s : Snapshot := .node { head with content := .value content } nodes
    keep name s
    return .node (← report s) s.difference?.isSome head.type

end Working

namespace Bench

/-- Carries out a request; a refused one is told by its fault. -/
def serve (b : Bench) (r : Request) : Bench × Except Fault Answer :=
  let (result, b) := (Working.answer r).run b
  (b, result)

end Bench

end Assay.Script
