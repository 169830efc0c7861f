import Assay.Entries
import Assay.Heap.Key

/-! # Heap and classes

Objects have a class, a body and their own attributes. Classes say what their objects share,
which fields they have, how they compare and how they are written; a heap carries the class
table along, so that every question about a value is a question about the heap.
-/

namespace Assay

inductive SequenceKind where
  | list
  | tuple
  | deque
  deriving DecidableEq, Repr

inductive MappingKind where
  | dict
  /-- Remembers the order of its keys when compared with its like. -/
  | ordered
  /-- Makes a new list for a key it does not have. -/
  | defaulting
  /-- A read-only view of a dictionary. -/
  | view
  /-- A mapping that is no dictionary. -/
  | frozen
  deriving DecidableEq, Repr

/-- What an object consists of, its own attributes apart. -/
inductive Body where
  | plain
  | sequence (kind : SequenceKind) (items : List Value)
  | mapping (kind : MappingKind) (entries : List (Key × Value))
  | members (frozen : Bool) (items : List Key)
  | octets (bs : List UInt8)
  /-- An exception; its arguments are a tuple of their own. -/
  | error (args : Value)
  deriving DecidableEq, Repr, Inhabited

structure Object where
  cls : ClassName
  body : Body := .plain
  /-- Attributes in the order they were first set. -/
  attrs : List (String × Value) := []
  /-- The slots that are set. -/
  slots : List (String × Value) := []
  deriving DecidableEq, Repr, Inhabited

namespace Object

/-- What an address that was never allocated reads as: an object without any members. -/
def blank : Object := { cls := "object" }

def sameName (a b : String) : Bool := a == b

/-- The object's own attribute of a name, be it a slot or not. -/
def own? (o : Object) (name : String) : Option Value :=
  (Entries.lookup sameName name o.slots).or (Entries.lookup sameName name o.attrs)

end Object

abbrev Objects := Array Object

/-- An exception that is about to be raised: its class and arguments. -/
structure Fault where
  cls : ClassName
  args : List Value
  deriving DecidableEq, Repr

/-- What a class keeps under a name. -/
inductive Attribute where
  | data (v : Value)
  /-- A method or a computed attribute, which is no data. -/
  | behaviour
  deriving DecidableEq, Repr

/-- What an object says its fields are. -/
inductive Description where
  | fields (entries : List (Key × Value))
  /-- A value that is still to be read as a dictionary. -/
  | value (v : Value)

/-- Where the fields of an object come from. -/
inductive FieldSource where
  /-- The attributes of the object, then its slots. -/
  | attributes
  /-- Declared fields, as far as they have a value. -/
  | record (fields : List String)
  /-- The object describes itself; its class then shares nothing. -/
  | described (describe : Objects → Address → Except Fault Description)
  /-- A description registered for the class. -/
  | registered (describe : Objects → Address → Except Fault (List (Key × Value)))

/-- How objects of a class compare. -/
inductive Equality where
  | identity
  /-- Objects of the very same class compare the named fields, read left side first. -/
  | fieldwise (fields : List String)
  /-- The class has a comparison of its own, whose answer is taken for its truth. -/
  | custom (compare : Objects → Address → Value → Except Fault Value)

/-- Whether objects of a class can be keys. -/
inductive Hashing where
  | identity
  | fieldwise (fields : List String)
  | none
  deriving DecidableEq, Repr

/-- How objects of a class are written. -/
inductive TextForm where
  | plain
  /-- The class name and the named fields. -/
  | record (fields : List String)
  | custom (write : Objects → Address → Except Fault String)

structure ClassInfo where
  /-- The module the class belongs to. -/
  home : String := "builtins"
  /-- Messages name the class together with its module. -/
  qualified : Bool := false
  /-- Superclasses, nearest first. -/
  ancestors : List ClassName := ["object"]
  /-- Class attributes in order. -/
  attributes : List (String × Attribute) := []
  slots : List String := []
  /-- Objects can have attributes other than slots. -/
  hasAttributes : Bool := false
  source : FieldSource := .attributes
  equality : Equality := .identity
  hashing : Hashing := .identity
  text : TextForm := .plain
  /-- Members of an enumeration under all their names. -/
  members : List (String × Member) := []

/-- Objects and the classes they belong to. -/
structure Heap where
  classes : ClassName → ClassInfo
  objects : Objects := #[]

namespace Heap

/-- The object at an address. -/
def object (h : Heap) (a : Address) : Object :=
  h.objects[a]?.getD .blank

/-- Puts a new object on the heap. -/
def alloc (h : Heap) (o : Object) : Heap × Address :=
  ({ h with objects := h.objects.push o }, h.objects.size)

/-- Replaces the object at an address. -/
def set (h : Heap) (a : Address) (o : Object) : Heap :=
  { h with objects := h.objects.setIfInBounds a o }

def setBody (h : Heap) (a : Address) (b : Body) : Heap :=
  h.set a { h.object a with body := b }

/-- What a value consists of, unless it is plain data. -/
def bodyOf (h : Heap) : Value → Body
  | .ref a => (h.object a).body
  | _ => .plain

/-- The class of a value. -/
def typeOf (h : Heap) : Value → ClassName
  | .null => "NoneType"
  | .bool _ => "bool"
  | .int _ => "int"
  | .float _ | .nan _ => "float"
  | .text _ => "str"
  | .bytes _ => "bytes"
  | .pattern _ _ => "Pattern"
  | .member m => m.cls
  | .range _ _ _ => "range"
  | .date _ => "date"
  | .moment _ => "datetime"
  | .duration _ => "timedelta"
  | .cls name => if (h.classes name).members.isEmpty then "type" else "EnumType"
  | .function _ => "builtin_function_or_method"
  | .ref a => (h.object a).cls

/-- A class and its superclasses, nearest first. -/
def lineage (h : Heap) (c : ClassName) : List ClassName :=
  c :: (h.classes c).ancestors

def isSubclass (h : Heap) (c base : ClassName) : Bool :=
  base == "object" || (h.lineage c).contains base

/-- The class name as messages give it. -/
def messageName (h : Heap) (c : ClassName) : String :=
  let info := h.classes c
  if info.qualified then s!"{info.home}.{c}" else c

/-- The data a class and its superclasses keep under a name. -/
def classData? (h : Heap) (c : ClassName) (name : String) : Option Value :=
  (h.lineage c).findSome? fun base =>
    match Entries.lookup Object.sameName name (h.classes base).attributes with
    | some (.data v) => some v
    | _ => none

/-- The attribute of an object: its own one, or else what its class keeps. -/
def attribute? (h : Heap) (a : Address) (name : String) : Option Value :=
  let o := h.object a
  (o.own? name).or (h.classData? o.cls name)

/-- Slot names along the lineage, each once. -/
def slotNames (h : Heap) (c : ClassName) : List String :=
  ((h.lineage c).flatMap fun base => (h.classes base).slots).foldl
    (fun acc name => if acc.contains name then acc else acc ++ [name]) []

end Heap

namespace Fault

def typeError (message : String) : Fault := ⟨"TypeError", [.text message]⟩
def valueError (message : String) : Fault := ⟨"ValueError", [.text message]⟩
def attributeError (message : String) : Fault := ⟨"AttributeError", [.text message]⟩
def indexError (message : String) : Fault := ⟨"IndexError", [.text message]⟩
def keyError (key : Value) : Fault := ⟨"KeyError", [key]⟩

def noAttribute (cls name : String) : Fault :=
  attributeError s!"'{cls}' object has no attribute '{name}'"

def notIterable (cls : String) : Fault := typeError s!"'{cls}' object is not iterable"

def unhashable (cls : String) : Fault := typeError s!"unhashable type: '{cls}'"

/-- Nesting that has no end. -/
def tooDeep : Fault := ⟨"RecursionError", [.text "maximum recursion depth exceeded"]⟩

end Fault

/-- The refusal of a value that has nothing under a name. An enumeration, whose names are its
members, only repeats the name. -/
def Heap.lacks (h : Heap) (v : Value) (name : String) : Fault :=
  match v with
  | .cls c =>
    if (h.classes c).members.isEmpty then
      .attributeError s!"type object '{c}' has no attribute '{name}'"
    else .attributeError name
  | _ => .noAttribute (h.messageName (h.typeOf v)) name

end Assay
