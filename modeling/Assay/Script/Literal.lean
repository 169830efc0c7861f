import Assay.Heap.Change
import Assay.Heap.Memory

/-! # Literals

Descriptions of values. Making a value out of its description puts new objects on the heap
and binds the names that the description gives; containers and objects are bound before their
contents are made, so that contents can refer back to them.
-/

namespace Assay.Script

/-- A description of a value. -/
inductive Literal where
  /-- Plain data. -/
  | plain (v : Value)
  /-- What is not a number, each time a new one. -/
  | notANumber
  /-- The value of a name. -/
  | variable (name : String)
  /-- A value that gets a name. -/
  | bound (name : String) (l : Literal)
  | sequence (cls : ClassName) (kind : SequenceKind) (items : List Literal)
  | mapping (cls : ClassName) (kind : MappingKind) (entries : List (Literal × Literal))
  | members (frozen : Bool) (items : List Literal)
  | octets (bs : List UInt8)
  | error (cls : ClassName) (args : List Literal) (attrs : List (String × Literal))
  /-- An object whose attributes are set one by one. -/
  | instance (cls : ClassName) (attrs : List (String × Literal))
  /-- An entry of a mapping as a value of its own. -/
  | entry (key v : Literal)
  /-- The snapshot of a value, as a value. -/
  | snapshot (l : Literal)
  deriving Inhabited

/-- Steps that work on the memory and may fail. -/
abbrev Making := ExceptT Fault (StateM Memory)

namespace Making

def alloc (o : Object) : Making Value := do
  let (m, a) := (← get).alloc o
  set m
  return .ref a

def bindName (name : Option String) (v : Value) : Making Unit :=
  match name with
  | some name => modify (·.bind name v)
  | none => pure ()

/-- Adds an item to the end of a sequence. -/
def pushItem (target v : Value) : Making Unit := do
  match target with
  | .ref a =>
    modify fun m =>
      match (m.heap.object a).body with
      | .sequence kind items =>
        { m with heap := m.heap.setBody a (.sequence kind (items ++ [v])) }
      | _ => m
  | _ => pure ()

/-- Puts a value under a key of a mapping. -/
def putEntry (target k v : Value) : Making Unit := do
  match target with
  | .ref a =>
    let m ← get
    match (m.heap.object a).body with
    | .mapping kind entries =>
      let entries ← ofExcept (m.heap.file entries k v)
      set { m with heap := m.heap.setBody a (.mapping kind entries) }
    | _ => pure ()
  | _ => pure ()

def putAttribute (target : Value) (name : String) (v : Value) : Making Unit := do
  let m ← get
  let heap ← ofExcept (m.heap.withAttribute target name v)
  set { m with heap }

end Making

namespace Literal

open Making

mutual
/-- Makes the value and binds the name, if one is given, as soon as there is an object. -/
def makeNamed (name : Option String) : Literal → Making Value
  | .plain v => do
    bindName name v
    return v
  | .notANumber => do
    let mark ← alloc .blank
    let v : Value := match mark with
      | .ref a => .nan a
      | _ => mark
    bindName name v
    return v
  | .variable x => do
    let v ← ofExcept (match (← get).named? x with
      | some v => .ok v
      | none => .error (.keyError (.text x)))
    bindName name v
    return v
  | .bound x l => do
    let v ← makeNamed (some x) l
    if name.isSome then bindName name v
    return v
  | .sequence cls .tuple items => do
    let vs ← makeAll items
    let m ← get
    let v ← if cls == "tuple" then do
        let (heap, v) := m.heap.tuple vs
        set { m with heap }
        pure v
      else alloc { cls, body := .sequence .tuple vs }
    bindName name v
    return v
  | .sequence cls kind items => do
    let v ← alloc { cls, body := .sequence kind [] }
    bindName name v
    makeItems v items
    return v
  | .mapping cls kind entries => do
    let v ← alloc { cls, body := .mapping kind [] }
    bindName name v
    makeEntries v entries
    return v
  | .members frozen items => do
    let vs ← makeAll items
    let keys ← ofExcept ((← get).heap.addMembers [] vs)
    let v ← alloc { cls := if frozen then "frozenset" else "set", body := .members frozen keys }
    bindName name v
    return v
  | .octets bs => do
    let v ← alloc { cls := "bytearray", body := .octets bs }
    bindName name v
    return v
  | .error cls args attrs => do
    let vs ← makeAll args
    let m ← get
    let (heap, a) := m.heap.newError cls vs
    set { m with heap }
    makeAttributes (.ref a) attrs
    bindName name (.ref a)
    return .ref a
  | .instance cls attrs => do
    let v ← alloc { cls }
    bindName name v
    makeAttributes v attrs
    return v
  | .entry key l => do
    let k ← makeNamed none key
    let v ← makeNamed none l
    let v ← alloc { cls := entryClass, attrs := [("key", k), ("value", v)] }
    bindName name v
    return v
  | .snapshot l => do
    let v ← makeNamed none l
    let (m, result) := (← get).capture v
    set m
    let s ← ofExcept result
    let (m, v) := m.storeNode s
    set m
    bindName name v
    return v
/-- Makes values from left to right. -/
def makeAll : List Literal → Making (List Value)
  | [] => return []
  | l :: rest => do
    let v ← makeNamed none l
    return v :: (← makeAll rest)
/-- Makes items and adds each to a sequence. -/
def makeItems (target : Value) : List Literal → Making Unit
  | [] => return
  | l :: rest => do
    let v ← makeNamed none l
    pushItem target v
    makeItems target rest
/-- Makes keys and values and puts each pair into a mapping. -/
def makeEntries (target : Value) : List (Literal × Literal) → Making Unit
  | [] => return
  | (key, l) :: rest => do
    let k ← makeNamed none key
    let v ← makeNamed none l
    putEntry target k v
    makeEntries target rest
/-- Makes values and sets each as an attribute. -/
def makeAttributes (target : Value) : List (String × Literal) → Making Unit
  | [] => return
  | (attr, l) :: rest => do
    let v ← makeNamed none l
    putAttribute target attr v
    makeAttributes target rest
end

/-- Makes the value a literal describes. -/
def make (l : Literal) : Making Value := makeNamed none l

end Literal

/-- Makes the value a literal describes. -/
def makeIn (m : Memory) (l : Literal) : Memory × Except Fault Value :=
  let (result, m) := (l.make).run m
  (m, result)

end Assay.Script
