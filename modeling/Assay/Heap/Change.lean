import Assay.Heap.Access
import Assay.Heap.Text

/-! # Changing objects

What can be done to an object from outside. A change that is refused leaves the heap as it was.
-/

namespace Assay

/-- A change of one object; `α` is what it is made of. -/
inductive Change (α : Type) where
  | append (v : α)
  | extend (vs : α)
  | pop (args : List α)
  | clear
  | add (v : α)
  | setItem (key v : α)
  | deleteItem (key : α)
  /-- Goes past whatever the class does to guard its attributes. -/
  | setAttribute (name v : α)
  | deleteAttribute (name : α)
  deriving DecidableEq, Repr

/-- The same change of values that are made one by one. -/
def Change.traverse {α β : Type} {m : Type → Type} [Monad m] (f : α → m β) :
    Change α → m (Change β)
  | .append v => return .append (← f v)
  | .extend vs => return .extend (← f vs)
  | .pop args => return .pop (← args.mapM f)
  | .clear => return .clear
  | .add v => return .add (← f v)
  | .setItem key v => do
    let key ← f key
    return .setItem key (← f v)
  | .deleteItem key => return .deleteItem (← f key)
  | .setAttribute name v => do
    let name ← f name
    return .setAttribute name (← f v)
  | .deleteAttribute name => return .deleteAttribute (← f name)

namespace Heap

/-- Takes an item out of a list: the last one, or the one at an index. -/
def popItem {α : Type} (h : Heap) (empty : String) (items : List α) (args : List Value) :
    Except Fault (List α) :=
  match args with
  | [] => if items.isEmpty then .error (.indexError empty) else .ok items.dropLast
  | [index] =>
    match index.int? with
    | none => .error (.typeError
        s!"'{h.messageName (h.typeOf index)}' object cannot be interpreted as an integer")
    | some i =>
      if items.isEmpty then .error (.indexError empty)
      else match place? items.length i with
        | some n => .ok (items.eraseIdx n)
        | none => .error (.indexError "pop index out of range")
  | _ => .error (.typeError s!"pop expected at most 1 argument, got {args.length}")

/-- Takes an entry or a member out of a container. -/
def popped (h : Heap) (target : Value) (args : List Value) : Except Fault Body :=
  match h.bodyOf target with
  | .sequence .list items =>
    (h.popItem "pop from empty list" items args).map (.sequence .list)
  | .sequence .deque items =>
    if args.isEmpty then
      (h.popItem "pop from an empty deque" items []).map (.sequence .deque)
    else .error (.typeError s!"deque.pop() takes no arguments ({args.length} given)")
  | .octets bs => (h.popItem "pop from empty bytearray" bs args).map .octets
  | .members false items =>
    if !args.isEmpty then
      .error (.typeError s!"set.pop() takes no arguments ({args.length} given)")
    else match Key.inSetOrder items with
      | [] => .error (.keyError (.text "pop from an empty set"))
      | first :: _ => .ok (.members false (items.eraseP (·.value == first)))
  | .mapping kind entries =>
    match kind, args with
    | .view, _ | .frozen, _ => .error (h.lacks target "pop")
    | .ordered, [] => .error (.typeError "pop() missing required argument 'key' (pos 1)")
    | _, [] => .error (.typeError "pop expected at least 1 argument, got 0")
    | _, key :: rest =>
      -- nothing is looked up where there is nothing
      let result := if entries.isEmpty && kind != .ordered then .ok none
        else h.withdraw? entries key
      match result with
      | .error e => .error e
      | .ok (some left) => .ok (.mapping kind left)
      | .ok none =>
        if !rest.isEmpty then .ok (.mapping kind entries)
        else .error (if kind == .ordered then h.lostKey key else .keyError key)
  | _ => .error (h.lacks target "pop")

/-- Puts a value at an index or under a key. -/
def withItem (h : Heap) (target key v : Value) : Except Fault Body :=
  let refuse : Except Fault Body := .error
    (.typeError s!"'{h.messageName (h.typeOf target)}' object does not support item assignment")
  match h.bodyOf target with
  | .sequence .tuple _ => refuse
  | .sequence kind items =>
    let words := { IndexWords.sequence kind with
      outside := if kind == .list then "list assignment index out of range"
        else "deque index out of range" }
    (h.indexOf words items.length key).map fun n => .sequence kind (items.set n v)
  | .octets bs =>
    let found := h.indexOf .octets bs.length key
    match key.int?, h.byteOf "byte" v with
    | some _, .error e => .error e
    | _, .ok b => found.map fun n => .octets (bs.set n b)
    | none, .error _ => found.map fun _ => .octets bs
  | .mapping kind entries =>
    if kind == .view || kind == .frozen then refuse
    else (h.file entries key v).map (.mapping kind)
  | _ => refuse

/-- Whether a value has items at all, as far as refusals are worded. -/
def hasPlaces : Value → Bool
  | .null | .bool _ | .int _ | .float _ | .nan _ | .pattern _ _ | .date _ | .moment _
  | .duration _ | .cls _ | .function _ => false
  | _ => true

/-- Drops the item at an index or under a key. -/
def withoutItem (h : Heap) (target key : Value) : Except Fault Body :=
  let verb := if key.int?.isSome && hasPlaces target then "doesn't" else "does not"
  let refuse : Except Fault Body := .error
    (.typeError s!"'{h.messageName (h.typeOf target)}' object {verb} support item deletion")
  match h.bodyOf target with
  | .sequence .tuple _ => refuse
  | .sequence kind items =>
    let words := { IndexWords.sequence kind with
      outside := if kind == .list then "list assignment index out of range"
        else "deque index out of range" }
    (h.indexOf words items.length key).map fun n => .sequence kind (items.eraseIdx n)
  | .octets bs => (h.indexOf .octets bs.length key).map fun n => .octets (bs.eraseIdx n)
  | .mapping kind entries =>
    if kind == .view || kind == .frozen then refuse
    else (h.withdraw entries key).map (.mapping kind)
  | _ => refuse

/-- The name of an attribute. -/
def attributeName (h : Heap) (name : Value) : Except Fault String :=
  match name.text? with
  | some s => .ok s
  | none => .error (.typeError
      s!"attribute name must be string, not '{h.messageName (h.typeOf name)}'")

/-- Sets an attribute of an object. -/
def withAttribute (h : Heap) (target : Value) (name : String) (v : Value) : Except Fault Heap :=
  let refuse : Except Fault Heap := .error (.noAttribute (h.messageName (h.typeOf target)) name)
  match target with
  | .member _ => .ok h
  | .cls _ => .error (.typeError
      s!"can't apply this __setattr__ to {h.typeOf target} object")
  | .ref a =>
    let o := h.object a
    let insert := Entries.insert Object.sameName name v
    match o.body with
    | .error _ =>
      if name == "args" then
        (h.items v).map fun items =>
          let (h, args) := h.tuple items
          h.setBody a (.error args)
      else .ok (h.set a { o with attrs := insert o.attrs })
    | _ =>
      if (h.slotNames o.cls).contains name then .ok (h.set a { o with slots := insert o.slots })
      else if (h.classes o.cls).hasAttributes then
        .ok (h.set a { o with attrs := insert o.attrs })
      else refuse
  | _ => refuse

/-- Drops an attribute of an object. -/
def withoutAttribute (h : Heap) (target : Value) (name : String) : Except Fault Heap :=
  let refuse : Except Fault Heap := .error (.noAttribute (h.messageName (h.typeOf target)) name)
  match target with
  | .cls _ => .error (.typeError
      s!"can't apply this __delattr__ to {h.typeOf target} object")
  | .ref a =>
    let o := h.object a
    let erase := Entries.erase Object.sameName name (ν := Value)
    if (h.slotNames o.cls).contains name then
      if Entries.contains Object.sameName name o.slots then
        .ok (h.set a { o with slots := erase o.slots })
      else .error (.attributeError name)
    else if Entries.contains Object.sameName name o.attrs then
      .ok (h.set a { o with attrs := erase o.attrs })
    else refuse
  | _ => refuse

/-- The body of an object after a change that touches nothing else. -/
def changedBody (h : Heap) (target : Value) : Change Value → Except Fault Body
  | .append v =>
    match h.bodyOf target with
    | .sequence .tuple _ => .error (h.lacks target "append")
    | .sequence kind items => .ok (.sequence kind (items ++ [v]))
    | .octets bs => (h.byteOf "byte" v).map fun b => .octets (bs ++ [b])
    | _ => .error (h.lacks target "append")
  | .extend vs =>
    match h.bodyOf target with
    | .sequence .tuple _ => .error (h.lacks target "extend")
    | .sequence kind items => (h.items vs).map fun more => .sequence kind (items ++ more)
    | .octets bs =>
      match h.items vs with
      | .error _ => .error (.typeError
          s!"can't extend bytearray with {h.messageName (h.typeOf vs)}")
      | .ok more => (more.mapM (h.byteOf "byte")).map fun more => .octets (bs ++ more)
    | _ => .error (h.lacks target "extend")
  | .pop args => h.popped target args
  | .clear =>
    match h.bodyOf target with
    | .sequence .list _ => .ok (.sequence .list [])
    | .sequence .deque _ => .ok (.sequence .deque [])
    | .mapping .dict _ => .ok (.mapping .dict [])
    | .mapping .ordered _ => .ok (.mapping .ordered [])
    | .mapping .defaulting _ => .ok (.mapping .defaulting [])
    | .members false _ => .ok (.members false [])
    | .octets _ => .ok (.octets [])
    | _ => .error (h.lacks target "clear")
  | .add v =>
    match h.bodyOf target with
    | .members false items => (h.addMember items v).map (.members false)
    | _ => .error (h.lacks target "add")
  | .setItem key v => h.withItem target key v
  | .deleteItem key => h.withoutItem target key
  | .setAttribute _ _ | .deleteAttribute _ => .ok (h.bodyOf target)

/-- Applies a change to the object behind a value. -/
def change (h : Heap) (target : Value) (c : Change Value) : Except Fault Heap :=
  match c with
  | .setAttribute name v => do h.withAttribute target (← h.attributeName name) v
  | .deleteAttribute name => do h.withoutAttribute target (← h.attributeName name)
  | _ =>
    (h.changedBody target c).map fun body =>
      match target with
      | .ref a => h.setBody a body
      | _ => h

end Heap

end Assay
