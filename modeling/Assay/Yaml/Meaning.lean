import Assay.Heap.Memory
import Assay.Yaml.Node
import Assay.Yaml.Scalar

/-! # The meaning of nodes

A node stands for a value: a mapping for a dictionary, a sequence for a list, a scalar for plain
data. Every node stands for one value, however often it is referred to. A collection is made
before its members and filled later, in the order in which collections are met, so that members
can refer back to it.
-/

namespace Assay.Yaml

/-! ## Merging -/

namespace Nodes

/-- Replaces the entries of a mapping. -/
def setEntries (ns : Nodes) (i : NodeIndex) (entries : List (NodeIndex × NodeIndex)) : Nodes :=
  match ns.node i with
  | .mapping tag _ => ns.setIfInBounds i (.mapping tag entries)
  | _ => ns

/-- The entries of a mapping; other nodes have none to be merged. -/
def entries (ns : Nodes) (i : NodeIndex) : Except Refusal (List (NodeIndex × NodeIndex)) :=
  match ns.node i with
  | .mapping _ entries => .ok entries
  | _ => .error .malformed

/-- Keys that would stand for their mapping are text where the mapping is read as such. -/
def retagKeys (ns : Nodes) (entries : List (NodeIndex × NodeIndex)) : Nodes :=
  entries.foldl (fun ns (key, _) =>
    let n := ns.node key
    if n.tag = .value then ns.setIfInBounds key (n.withTag .text) else ns) ns

/-- The mappings to be merged under a key: one, or several, of which the first overrule. -/
def mergeSources (ns : Nodes) (i : NodeIndex) : List NodeIndex :=
  match ns.node i with
  | .sequence _ items => items
  | _ => [i]

/-- Takes the entries under merge keys out of a mapping and puts what they merge in front of the
others. Every step takes one entry out, so there are no more steps than entries. -/
def flatten : Nat → Nodes → List (NodeIndex × NodeIndex) → NodeIndex → Except Refusal Nodes
  | 0, _, _, _ => .error .malformed
  | limit + 1, ns, merged, i => do
    let entries ← ns.entries i
    match entries.find? fun (key, _) => (ns.node key).tag = .merge with
    | none =>
      let ns := ns.retagKeys entries
      return ns.setEntries i (merged ++ entries)
    | some entry =>
      let (ns, found) ← (ns.setEntries i (entries.erase entry)).mergeSources entry.2 |>.foldlM
        (fun (ns, found) source => do
          let ns ← flatten limit ns [] source
          return (ns, (← ns.entries source) ++ found))
        (ns.setEntries i (entries.erase entry), [])
      flatten limit ns (merged ++ found) i

/-- How many entries all mappings have. -/
def entryCount (ns : Nodes) : Nat :=
  ns.foldl (fun n node => n + match node with
    | .mapping _ entries => entries.length
    | _ => 0) 0

/-- The text that a node gives where a scalar is wanted. A mapping may have a value that stands
for it; one that stands for itself has no end. -/
def scalarText (ns : Nodes) : Nat → NodeIndex → Except Refusal String
  | 0, _ => .error (.raised .tooDeep)
  | limit + 1, i =>
    match ns.node i with
    | .scalar _ text => .ok text
    | .sequence _ _ => .error .malformed
    | .mapping _ entries =>
      match entries.find? fun (key, _) => (ns.node key).tag = .value with
      | some (_, value) => scalarText ns limit value
      | none => .error .malformed

end Nodes

/-! ## Making values -/

/-- How far the values of nodes have been made. -/
structure Progress where
  memory : Memory
  nodes : Nodes
  /-- The values made so far. -/
  made : List (NodeIndex × Value) := []
  /-- Collections that are still empty, in the order in which they were made. -/
  waiting : List (NodeIndex × Address) := []
  /-- What is not a number, once it was written as a word. -/
  notANumber : Option Value := none

/-- A step of making values. -/
abbrev Making := StateT Progress (Except Refusal)

namespace Making

def refuse {α : Type} (r : Refusal) : Making α := fun _ => .error r

def lift {α : Type} (x : Except Refusal α) : Making α := fun p => x.map fun a => (a, p)

/-- Puts a new object on the heap. -/
def alloc (o : Object) : Making Address := do
  let p ← get
  let (memory, a) := p.memory.alloc o
  set { p with memory }
  return a

/-- Makes an empty collection, which is to be filled later. -/
def await (i : NodeIndex) (cls : ClassName) (body : Body) : Making Value := do
  let a ← alloc { cls, body }
  modify fun p => { p with waiting := p.waiting ++ [(i, a)] }
  return .ref a

/-- What is not a number, as a value of its own. -/
def newNotANumber : Making Value := do
  return .nan (← alloc .blank)

/-- The value of a scalar. -/
def ofMeaning : Meaning → Making Value
  | .value v => return v
  | .notANumber false => newNotANumber
  | .notANumber true => do
    match (← get).notANumber with
    | some v => return v
    | none =>
      let v ← newNotANumber
      modify fun p => { p with notANumber := some v }
      return v

/-- The value of a node that a tag of scalars stands in front of. -/
def scalar (i : NodeIndex) (tag : Tag) : Making Value := do
  let ns := (← get).nodes
  let text ← lift (ns.scalarText (ns.size + 1) i)
  match tag, ns.node i with
  | .timestamp, .mapping _ _ =>
    refuse (.raised (.typeError "expected string or bytes-like object, got 'list'"))
  | _, _ => ofMeaning (← lift (Scalar.meaning tag text))

/-- Makes the value of a node by its tag; a collection is empty at first. -/
def fresh (i : NodeIndex) (tag : Tag) : Making Value := do
  match tag with
  | .sequence | .pairs => await i "list" (.sequence .list [])
  | .mapping => await i "dict" (.mapping .dict [])
  | .members => await i "set" (.members false [])
  | .merge | .value | .unknown => refuse .malformed
  | .null | .bool | .int | .float | .binary | .timestamp | .text => scalar i tag

/-- The value of a node. -/
def value (i : NodeIndex) : Making Value := do
  let p ← get
  match p.made.lookup i with
  | some v => return v
  | none =>
    let v ← fresh i (p.nodes.node i).tag
    modify fun p => { p with made := (i, v) :: p.made }
    return v

/-! ## Filling collections -/

def isReference : Value → Bool
  | .ref _ => true
  | _ => false

/-- The entries of a dictionary. Only plain data can be a key. -/
def entries : List (NodeIndex × NodeIndex) → Making (List (Value × Value))
  | [] => return []
  | (key, item) :: rest => do
    let k ← value key
    if isReference k then refuse .malformed
    let v ← value item
    return (k, v) :: (← entries rest)

/-- The entries of a mapping after merging, each key once. -/
def mappingEntries (i : NodeIndex) : Making (List (Key × Value)) := do
  let p ← get
  let nodes ← lift (p.nodes.flatten (p.nodes.entryCount + 1) [] i)
  set { p with nodes }
  let es ← entries (← lift (nodes.entries i))
  let h := (← get).memory.heap
  match h.fileWalk h.equal [] (es.map .ok) with
  | .ok es => return es
  | .error e => refuse (.raised e)

/-- The only entry of a mapping, as a pair. -/
def pair (i : NodeIndex) : Making Value := do
  match (← get).nodes.node i with
  | .mapping _ [(key, item)] =>
    let k ← value key
    let v ← value item
    let p ← get
    let (heap, t) := p.memory.heap.tuple [k, v]
    set { p with memory := { p.memory with heap } }
    return t
  | _ => refuse .malformed

/-- The items of a sequence, each made in the same way. -/
def items (i : NodeIndex) (make : NodeIndex → Making Value) : Making (List Value) := do
  match (← get).nodes.node i with
  | .sequence _ is => is.mapM make
  | _ => refuse .malformed

/-- What belongs into the collection of a node. -/
def content (i : NodeIndex) : Making Body := do
  match ((← get).nodes.node i).tag with
  | .sequence => return .sequence .list (← items i value)
  | .pairs => return .sequence .list (← items i pair)
  | .members => return .members false ((← mappingEntries i).map (·.1))
  | _ => return .mapping .dict (← mappingEntries i)

/-- Fills the collections that wait, and those met while doing so. -/
def fillAll : Nat → Making Unit
  | 0 => return
  | limit + 1 => do
    let p ← get
    match p.waiting with
    | [] => return
    | (i, a) :: rest =>
      set { p with waiting := rest }
      let body ← content i
      modify fun p => { p with memory := { p.memory with heap := p.memory.heap.setBody a body } }
      fillAll limit

end Making

/-- The value that a text stands for; a text without a document stands for null. -/
def load (m : Memory) (text : String) : Except Refusal (Memory × Value) := do
  let (nodes, root) ← Nodes.ofText text
  match root with
  | none => return (m, .null)
  | some i =>
    let make : Making Value := do
      let v ← Making.value i
      -- every node is filled once
      Making.fillAll (nodes.size + 1)
      return v
    let (v, p) ← make.run { memory := m, nodes }
    return (p.memory, v)

end Assay.Yaml
