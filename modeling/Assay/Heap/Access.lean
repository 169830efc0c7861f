import Assay.Heap.Fields

/-! # Looking into values

Length, items, attributes and class membership of a value, each with the failure it has where
the value offers none.
-/

namespace Assay.Heap

/-- The tuple of some items. The tuple without items is a single object, kept at the first
address of the heap. -/
def tuple (h : Heap) (items : List Value) : Heap × Value :=
  if items.isEmpty && h.object 0 == { cls := "tuple", body := .sequence .tuple [] } then
    (h, .ref 0)
  else
    let (h, a) := h.alloc { cls := "tuple", body := .sequence .tuple items }
    (h, .ref a)

/-- A new exception. -/
def newError (h : Heap) (cls : ClassName) (args : List Value) : Heap × Address :=
  let (h, args) := h.tuple args
  h.alloc { cls, body := .error args }

/-- The exception that a fault raises. -/
def raise (h : Heap) (f : Fault) : Heap × Address := h.newError f.cls f.args

/-- Whether a value is an exception. -/
def isError (h : Heap) : Value → Bool
  | .ref a => ((h.object a).body matches .error _)
  | _ => false

/-- Whether ordinary handlers let an exception pass, as a request to end the process. -/
def isInterrupt (h : Heap) (a : Address) : Bool :=
  !h.isSubclass (h.object a).cls "Exception"

/-- The byte that a value stands for; `noun` is what the message calls it. -/
def byteOf (h : Heap) (noun : String) (v : Value) : Except Fault UInt8 :=
  match v.int? with
  | none => .error (.typeError
      s!"'{h.messageName (h.typeOf v)}' object cannot be interpreted as an integer")
  | some n =>
    if 0 ≤ n && n < 256 then .ok (UInt8.ofNat n.toNat)
    else .error (.valueError s!"{noun} must be in range(0, 256)")

/-- Adds items to the members of a set, one after the other. -/
def addMembers (h : Heap) : List Key → List Value → Except Fault (List Key)
  | members, [] => .ok members
  | members, v :: rest =>
    match h.addMember members v with
    | .error e => .error e
    | .ok members => h.addMembers members rest

/-- The members of a set made of the items of a value. What a set or a plain dictionary holds
keeps the digests that it is filed under. -/
def asMembers (h : Heap) (v : Value) : Except Fault (List Key) :=
  let walked : Except Fault (List Key) :=
    match h.items v with
    | .error e => .error e
    | .ok items => h.addMembers [] items
  match v with
  | .ref a =>
    match h.object a with
    | { body := .members _ members, .. } => .ok members
    | { cls := "dict", body := .mapping .dict entries, .. } => .ok (entries.map (·.1))
    | _ => walked
  | _ => walked

/-- How many members a value has. -/
def length (h : Heap) (v : Value) : Except Fault Nat :=
  let refuse : Except Fault Nat :=
    .error (.typeError s!"object of type '{h.messageName (h.typeOf v)}' has no len()")
  match v.text? with
  | some s => .ok s.length
  | _ =>
  match v with
  | .bytes bs => .ok bs.length
  | .range start stop step => .ok (Value.rangeLength start stop step)
  | .cls c => if (h.classes c).members.isEmpty then refuse else (h.items v).map List.length
  | .ref a =>
    match (h.object a).body with
    | .sequence _ items | .members _ items => .ok items.length
    | .mapping _ entries => .ok entries.length
    | .octets bs => .ok bs.length
    | .plain | .error _ => refuse
  | _ => refuse

/-- The place that an index, counted from the end where it is negative, means in a list. -/
def place? (length : Nat) (index : Int) : Option Nat :=
  if 0 ≤ index then (if index.toNat < length then some index.toNat else none)
  else if 0 ≤ (length : Int) + index then some ((length : Int) + index).toNat
  else none

/-- How a sequence speaks about its indices. -/
structure IndexWords where
  /-- What is said of an index outside. -/
  outside : String
  /-- What is said of an index of the given class. -/
  wrongClass : String → String

namespace IndexWords

def sequence : SequenceKind → IndexWords
  | .list => ⟨"list index out of range",
      fun c => s!"list indices must be integers or slices, not {c}"⟩
  | .tuple => ⟨"tuple index out of range",
      fun c => s!"tuple indices must be integers or slices, not {c}"⟩
  | .deque => ⟨"deque index out of range", fun c => s!"sequence index must be integer, not '{c}'"⟩

def text : IndexWords :=
  ⟨"string index out of range", fun c => s!"string indices must be integers, not '{c}'"⟩

def bytes : IndexWords :=
  ⟨"index out of range", fun c => s!"byte indices must be integers or slices, not {c}"⟩

def octets : IndexWords :=
  ⟨"bytearray index out of range",
    fun c => s!"bytearray indices must be integers or slices, not {c}"⟩

def range : IndexWords :=
  ⟨"range object index out of range",
    fun c => s!"range indices must be integers or slices, not {c}"⟩

end IndexWords

/-- The place a key means among so many items. -/
def indexOf (h : Heap) (words : IndexWords) (length : Nat) (key : Value) : Except Fault Nat :=
  match key.int? with
  | none => .error (.typeError (words.wrongClass (h.messageName (h.typeOf key))))
  | some i =>
    match place? length i with
    | some n => .ok n
    | none => .error (.indexError words.outside)

/-- The item of a list under a key. -/
def listItem (h : Heap) (words : IndexWords) (items : List Value) (key : Value) :
    Except Fault Value :=
  (h.indexOf words items.length key).map fun n => items[n]?.getD .null

/-- The member of a value under a key. A defaulting mapping makes a new list for a key it
does not have. -/
def item (h : Heap) (v key : Value) : Heap × Except Fault Value :=
  let refuse : Except Fault Value :=
    .error (.typeError s!"'{h.messageName (h.typeOf v)}' object is not subscriptable")
  match v.text? with
  | some s => (h, h.listItem .text (s.toList.map fun c => .text c.toString) key)
  | _ =>
  match v with
  | .bytes bs => (h, h.listItem .bytes (bs.map fun b => .int b.toNat) key)
  | .range start stop step =>
    (h, h.listItem .range ((Value.rangeItems start stop step).map .int) key)
  | .cls c =>
    let members := (h.classes c).members
    if members.isEmpty then (h, .error (.typeError s!"type '{c}' is not subscriptable"))
    else match h.key key with
      | .error e => (h, .error e)
      | .ok _ =>
        match members.find? fun (name, _) => key.text? == some name with
        | some (_, m) => (h, .ok (.member m))
        | _ => (h, .error (.keyError key))
  | .ref a =>
    match (h.object a).body with
    | .sequence kind items => (h, h.listItem (.sequence kind) items key)
    | .octets bs => (h, h.listItem .octets (bs.map fun b => .int b.toNat) key)
    | .mapping .defaulting entries =>
      match h.find? key entries with
      | .error e => (h, .error e)
      | .ok (some x) => (h, .ok x)
      | .ok none =>
        let (h, b) := h.alloc { cls := "list", body := .sequence .list [] }
        match h.file entries key (.ref b) with
        | .error e => (h, .error e)
        | .ok entries => (h.setBody a (.mapping .defaulting entries), .ok (.ref b))
    | .mapping _ entries => (h, h.find key entries)
    | .plain | .error _ | .members _ _ => (h, refuse)
  | _ => (h, refuse)

/-- Attributes of plain data. -/
def plainAttribute? (h : Heap) (v : Value) (name : String) : Option Value :=
  match v, name with
  | .member m, "name" => some (.text m.name)
  | .member { payload := .number n, .. }, "value" => some (.int n)
  | .member { payload := .text s, .. }, "value" => some (.text s)
  | .range start _ _, "start" => some (.int start)
  | .range _ stop _, "stop" => some (.int stop)
  | .range _ _ step, "step" => some (.int step)
  | .date d, "year" | .moment { date := d, .. }, "year" => some (.int d.year)
  | .date d, "month" | .moment { date := d, .. }, "month" => some (.int d.month)
  | .date d, "day" | .moment { date := d, .. }, "day" => some (.int d.day)
  | .moment m, "hour" => some (.int m.hour)
  | .moment m, "minute" => some (.int m.minute)
  | .moment m, "second" => some (.int m.second)
  | .moment m, "microsecond" => some (.int m.microsecond)
  | .moment _, "fold" => some (.int 0)
  | .moment { offset := none, .. }, "tzinfo" => some .null
  | .duration d, "days" => some (.int d.days)
  | .duration d, "seconds" => some (.int d.seconds)
  | .duration d, "microseconds" => some (.int d.microseconds)
  | .pattern source _, "pattern" => some (.text source)
  | .pattern _ flags, "flags" => some (.int flags)
  | .float _, "real" | .nan _, "real" => some v
  | .float _, "imag" | .nan _, "imag" => some (.float (.finite false 0 (-1074)))
  | .cls c, "__name__" => some (.text c)
  | .cls c, _ =>
    match (h.classes c).members.find? fun (n, _) => n == name with
    | some (_, m) => some (.member m)
    | none => h.classData? c name
  | _, _ =>
    match v.int?, name with
    | some n, "real" | some n, "numerator" => some (.int n)
    | some _, "imag" => some (.int 0)
    | some _, "denominator" => some (.int 1)
    | _, _ => none

/-- Attributes of an object: its own, those its class names by position, those of the class. -/
def objectAttribute? (h : Heap) (a : Address) (name : String) : Option Value :=
  let o := h.object a
  let positional : Option Value :=
    match o.body, (h.classes o.cls).text with
    | .sequence _ items, .record fields => (fields.zip items).findSome? fun (field, v) =>
        if field == name then some v else none
    | .error args, _ => if name == "args" then some args else none
    | .sequence .deque _, _ => if name == "maxlen" then some .null else none
    | _, _ => none
  positional.or (h.attribute? a name)

/-- The attribute of a value under a name. -/
def attributeOf (h : Heap) (v : Value) (name : String) : Except Fault Value :=
  let found : Option Value :=
    if name == "__class__" then some (.cls (h.typeOf v))
    else match v with
      | .ref a => h.objectAttribute? a name
      | _ => h.plainAttribute? v name
  match found with
  | some x => .ok x
  | none => .error (h.lacks v name)

/-- Whether a value is an instance of a class, or of one of the classes in a tuple, taken
from left to right up to the first that fits. -/
def isInstanceWithin (h : Heap) : Nat → Value → Value → Except Fault Bool
  | 0, _, _ => .error .tooDeep
  | budget + 1, v, t =>
    let refuse : Except Fault Bool := .error
      (.typeError "isinstance() arg 2 must be a type, a tuple of types, or a union")
    match t with
    | .cls c => .ok (h.isSubclass (h.typeOf v) c)
    | .ref a =>
      match (h.object a).body with
      | .sequence .tuple items =>
        items.foldl
          (fun found t => match found with
            | .ok false => h.isInstanceWithin budget v t
            | _ => found)
          (.ok false)
      | _ => refuse
    | _ => refuse

def isInstance (h : Heap) (v t : Value) : Except Fault Bool :=
  h.isInstanceWithin (h.objects.size + 2) v t

end Assay.Heap
