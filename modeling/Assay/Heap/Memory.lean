import Assay.Heap.Access
import Assay.Heap.Standard
import Assay.Snapshot.Build

/-! # Memory

What test code works on: a heap and the names it gave to values. Composites are numbered, for
reports, in the order in which snapshots first ask for their identity.
-/

namespace Assay

structure Memory where
  heap : Heap
  /-- Values by name, the latest binding of a name first. -/
  names : List (String × Value) := []
  /-- Composites in the order of their numbers, which start at one. -/
  numbering : List Address := []

namespace Memory

/-- Gives a name to a value. -/
def bind (m : Memory) (name : String) (v : Value) : Memory :=
  { m with names := (name, v) :: m.names }

def named? (m : Memory) (name : String) : Option Value :=
  Entries.lookup Object.sameName name m.names

def alloc (m : Memory) (o : Object) : Memory × Address :=
  let (heap, a) := m.heap.alloc o
  ({ m with heap }, a)

/-- Adds those composites to a numbering that are not in it. -/
def extendNumbering (known asked : List Address) : List Address :=
  asked.foldl (fun known a => if known.contains a then known else known ++ [a]) known

/-- Numbers composites that have no number yet. -/
def number (m : Memory) (asked : List Address) : Memory :=
  { m with numbering := extendNumbering m.numbering asked }

/-- The number of a composite. -/
def tokenOf (m : Memory) (a : Address) : Nat :=
  m.numbering.idxOf a + 1

/-- Shows a snapshot with the numbers of its composites. -/
def numbered (m : Memory) (s : Snapshot) : Snapshot :=
  s.mapIdentity m.tokenOf

/-- Takes a snapshot, given the composites that count as entered, and numbers what it asked
for, also where it fails. -/
def captureFrom (m : Memory) (seen : List Address) (label v : Value) :
    Memory × List Address × Except Fault Snapshot :=
  let (seen, result) := m.heap.buildSnapshot seen label v
  (m.number seen, seen, result)

/-- Takes a snapshot of a value. -/
def capture (m : Memory) (v : Value) : Memory × Except Fault Snapshot :=
  let (m, _, result) := m.captureFrom [] .null v
  (m, result)

mutual
/-- Puts the nodes of a snapshot on the heap as objects. -/
def storeNode (m : Memory) : Snapshot → Memory × Value
  | .node head children =>
    let (m, entries) := storeNodes m children
    let (m, dict) := m.alloc { cls := "dict", body := .mapping .dict entries }
    let (heap, content) := m.heap.thaw head.content
    let m := { m with heap }
    let number (a : Address) : Value := .int (m.tokenOf a)
    let anchor : Option Value := head.identity.map .ref
    let (m, a) := m.alloc
      { cls := Standard.nodeClass
        attrs := Standard.nodeFields.zip
          [head.label, .cls head.type, .bool head.isLeaf, (head.identity.map number).getD .null,
            .bool head.alreadyReferenced, content, .ref dict, anchor.getD .null] }
    (m, .ref a)
/-- Puts the children of a node on the heap. -/
def storeNodes (m : Memory) : List (Key × Snapshot) → Memory × List (Key × Value)
  | [] => (m, [])
  | (label, s) :: rest =>
    let (m, v) := storeNode m s
    let (m, entries) := storeNodes m rest
    (m, (label, v) :: entries)
end

end Memory

end Assay
