import Assay.Heap.Equality

/-! # Kinds of values and their fields

A value is a leaf, a sequence, a mapping or a structured object with named fields. Leaves are
compared as they are; everything else has members that can be looked into.
-/

namespace Assay

/-- Structural classification of a value. -/
inductive Kind where
  | leaf
  | sequence
  | mapping
  | structured
  deriving DecidableEq, Repr

def Kind.name : Kind → String
  | .leaf => "leaf"
  | .sequence => "sequence"
  | .mapping => "mapping"
  | .structured => "structured"

/-- The members of a value, as far as they can be told without asking its class. -/
inductive Shape where
  | leaf
  | sequence (a : Address) (items : List Value)
  | mapping (a : Address) (kind : MappingKind) (entries : List (Key × Value))
  | structured (a : Address)
  deriving DecidableEq, Repr

namespace Shape

def kind : Shape → Kind
  | .leaf => .leaf
  | .sequence _ _ => .sequence
  | .mapping _ _ _ => .mapping
  | .structured _ => .structured

/-- Where the value lives, unless it is a leaf. -/
def address? : Shape → Option Address
  | .leaf => none
  | .sequence a _ | .mapping a _ _ | .structured a => some a

end Shape

namespace Heap

/-- Whether objects of a class have fields at all. -/
def hasFieldSource (h : Heap) (c : ClassName) : Bool :=
  let info := h.classes c
  match info.source with
  | .described _ | .registered _ | .record _ => true
  | .attributes => info.hasAttributes || !(h.slotNames c).isEmpty

/-- The structure of a value. -/
def shape (h : Heap) : Value → Shape
  | .ref a =>
    let o := h.object a
    match o.body with
    | .sequence _ items => .sequence a items
    | .mapping kind entries => .mapping a kind entries
    | .members _ _ | .octets _ => .leaf
    | .error _ => .structured a
    | .plain => if h.hasFieldSource o.cls then .structured a else .leaf
  | _ => .leaf

def kind (h : Heap) (v : Value) : Kind := (h.shape v).kind

def isLeaf (h : Heap) (v : Value) : Bool := h.kind v == .leaf

/-- The items a value yields when it is walked through. -/
def items (h : Heap) (v : Value) : Except Fault (List Value) :=
  match v with
  | .text s => .ok (s.toList.map fun c => .text c.toString)
  | .member { payload := .text s, transparent := true, .. } =>
    .ok (s.toList.map fun c => .text c.toString)
  | .bytes bs => .ok (bs.map fun b => .int b.toNat)
  | .range start stop step => .ok ((Value.rangeItems start stop step).map .int)
  | .cls c =>
    match (h.classes c).members with
    | [] => .error (.notIterable "type")
    | ms => .ok (Entries.distinct (· == ·) (ms.map fun (_, m) => .member m))
  | .ref a =>
    match (h.object a).body with
    | .sequence _ items => .ok items
    | .members _ items => .ok (Key.inSetOrder items)
    | .mapping kind entries => (h.walkKeys kind entries).all
    | .octets bs => .ok (bs.map fun b => .int b.toNat)
    | _ => .error (.notIterable (h.messageName (h.object a).cls))
  | _ => .error (.notIterable (h.messageName (h.typeOf v)))

/-- Reads a pair: what a dictionary is built from holds sequences of two members. -/
def pairOf (h : Heap) (index : Nat) (v : Value) : Except Fault (Value × Value) :=
  let refuse : Except Fault (Value × Value) := .error (.typeError
    s!"cannot convert dictionary update sequence element #{index} to a sequence")
  match h.items v with
  | .ok [k, x] => .ok (k, x)
  | .ok items => .error (.valueError
      s!"dictionary update sequence element #{index} has length {items.length}; 2 is required")
  | .error e => if e.cls == "TypeError" then refuse else .error e

/-- Files the items of a list as pairs, counting them from the given index. -/
def filePairs (h : Heap) : Nat → List (Key × Value) → List Value →
    Except Fault (List (Key × Value))
  | _, entries, [] => .ok entries
  | index, entries, v :: rest =>
    match h.pairOf index v with
    | .error e => .error e
    | .ok (k, x) =>
      match h.file entries k x with
      | .error e => .error e
      | .ok entries => h.filePairs (index + 1) entries rest

/-- Files what is found in a mapping under each of its keys. -/
def fileKeys (h : Heap) (source : List (Key × Value)) :
    List (Key × Value) → Walk Value → Except Fault (List (Key × Value))
  | filed, [] => .ok filed
  | _, .error e :: _ => .error e
  | filed, .ok k :: rest =>
    match h.find k source with
    | .error e => .error e
    | .ok v =>
      match h.file filed k v with
      | .error e => .error e
      | .ok filed => h.fileKeys source filed rest

/-- Reads a value as a dictionary. A dictionary is taken over with the digests it has; of any
other mapping the keys are listed first and then looked up one by one; all else is a sequence of
pairs. -/
def asDictionary (h : Heap) (v : Value) : Except Fault (List (Key × Value)) :=
  match h.shape v with
  | .mapping _ .dict entries | .mapping _ .defaulting entries => .ok entries
  | .mapping _ kind entries =>
    match (h.walkKeys kind entries).all with
    | .error e => .error e
    | .ok keys => h.fileKeys entries [] (keys.map .ok)
  | _ =>
    match h.items v with
    | .error e => .error e
    | .ok items => h.filePairs 0 [] items

def named (entries : List (String × Value)) : List (Key × Value) :=
  entries.map fun (name, v) => (.text name, v)

/-- Attributes of the object in order, then those slots of its class that are set and not
yet named. -/
def attributeFields (h : Heap) (o : Object) : List (String × Value) :=
  (h.slotNames o.cls).foldl
    (fun fields name =>
      if Entries.contains Object.sameName name fields then fields
      else match (o.own? name).or (h.classData? o.cls name) with
        | some v => fields ++ [(name, v)]
        | none => fields)
    o.attrs

/-- The declared fields that have a value. -/
def recordFields (h : Heap) (a : Address) (fields : List String) : List (String × Value) :=
  fields.filterMap fun name => (h.attribute? a name).map fun v => (name, v)

/-- The fields of an object, in order. -/
def fields (h : Heap) (a : Address) : Except Fault (List (Key × Value)) :=
  let o := h.object a
  match o.body with
  | .error args => .ok (named (Entries.insertAll Object.sameName [("args", args)] o.attrs))
  | _ =>
    match (h.classes o.cls).source with
    | .registered describe => describe h.objects a
    | .described describe =>
      match describe h.objects a with
      | .error e => .error e
      | .ok (.fields entries) => .ok entries
      | .ok (.value v) => h.asDictionary v
    | .record names => .ok (named (h.recordFields a names))
    | .attributes => .ok (named (h.attributeFields o))

/-- Whether names of this kind are kept to the class. -/
def isPrivate (name : String) : Bool := name.toList.head? == some '_'

/-- The data a lineage shares: the nearest class with a name wins, private names, behaviour
and names that are fields of the object are left out. -/
def sharedData (h : Heap) (taken : String → Bool) (lineage : List ClassName) :
    List (String × Value) :=
  lineage.foldl
    (fun shared c =>
      (h.classes c).attributes.foldl
        (fun shared (name, kept) =>
          match kept with
          | .behaviour => shared
          | .data v =>
            if isPrivate name || taken name || Entries.contains Object.sameName name shared
            then shared else shared ++ [(name, v)])
        shared)
    []

/-- The fields that all objects of the class share. A class whose objects describe
themselves shares none. -/
def sharedFields (h : Heap) (a : Address) : Except Fault (List (Key × Value)) :=
  let c := (h.object a).cls
  match (h.classes c).source with
  | .described _ => .ok []
  | _ =>
    match h.fields a with
    | .error e => .error e
    | .ok own =>
      let taken (name : String) : Bool := own.any (·.1.isText name)
      .ok (named (h.sharedData taken (h.lineage c)))

/-- Compares leaves: members of enumerations by identity, all else as values. -/
def leafEqual (h : Heap) (l r : Value) : Except Fault Bool :=
  match l, r with
  | .member _, _ | _, .member _ => .ok (l == r)
  | _, _ => h.equal l r

end Heap

end Assay
