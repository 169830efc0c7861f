import Assay.Heap.Walk

/-! # Equality of values

Two operands are asked in turn whether they are equal: the left one first, unless the class
of the right one is a proper subclass of the left one's. The first that has an opinion
decides; where neither has one, only the very same object is equal. Members of containers
that are the same object count as equal without being asked.
-/

namespace Assay.Heap

/-- The truth of a value: nothing, zero and what is empty are false. -/
def truth (h : Heap) : Value → Bool
  | .null => false
  | .bool b => b
  | .int n => n != 0
  | .float x => !x.isZero
  | .nan _ => true
  | .text s => !s.isEmpty
  | .bytes bs => !bs.isEmpty
  | .pattern _ _ => true
  | .member { payload := .number n, transparent := true, .. } => n != 0
  | .member { payload := .text s, transparent := true, .. } => !s.isEmpty
  | .member _ => true
  | .range start stop step => Value.rangeLength start stop step != 0
  | .date _ | .moment _ => true
  | .duration d => !d.isZero
  | .cls _ | .function _ => true
  | .ref a =>
    match (h.object a).body with
    | .plain | .error _ => true
    | .sequence _ items | .members _ items => !items.isEmpty
    | .mapping _ entries => !entries.isEmpty
    | .octets bs => !bs.isEmpty

/-- Compares two lists member by member up to the end of the shorter one. -/
def allEqual (eq : Comparison) : List Value → List Value → Except Fault Bool
  | x :: xs, y :: ys =>
    match sameOr eq x y with
    | .error e => .error e
    | .ok false => .ok false
    | .ok true => allEqual eq xs ys
  | _, _ => .ok true

/-- Whether every entry of the leading mapping has an equal one in the other, under the digest
it is filed under. -/
def entriesIn (eq : Comparison) (other : List (Key × Value)) :
    List (Key × Value) → Except Fault Bool
  | [] => .ok true
  | (key, value) :: rest =>
    match Entries.search (key.isFor eq) other with
    | .error e => .error e
    | .ok none => .ok false
    | .ok (some value') =>
      match sameOr eq value value' with
      | .error e => .error e
      | .ok false => .ok false
      | .ok true => entriesIn eq other rest

/-- Dictionaries of one size are equal when every entry of the leading one is in the other. -/
def entriesEqual (eq : Comparison) (lead other : List (Key × Value)) : Except Fault Bool :=
  if lead.length != other.length then .ok false else entriesIn eq other lead

/-- Sets of one size are equal when every member of the left one is in the right one. -/
def membersEqual (eq : Comparison) (xs ys : List Key) : Except Fault Bool :=
  if xs.length != ys.length then .ok false
  else xs.allM fun x => ys.anyM (x.isFor eq)

/-- Compares two mappings as the dictionaries that their entries make. -/
def walksEqual (h : Heap) (eq : Comparison) (kind kind' : MappingKind)
    (es es' : List (Key × Value)) : Except Fault Bool :=
  match h.fileWalk eq [] (h.walkEntriesWith eq kind es) with
  | .error e => .error e
  | .ok lead =>
    match h.fileWalk eq [] (h.walkEntriesWith eq kind' es') with
    | .error e => .error e
    | .ok other => entriesEqual eq lead other

/-- What a mapping answers about another one. A dictionary leaves the answer to what is no
dictionary; a view asks the dictionary behind it, so that the other side leads. -/
def mappingOpinion (h : Heap) (eq : Comparison) (kind kind' : MappingKind) (plain' : Bool)
    (es es' : List (Key × Value)) : Except Fault (Option Bool) :=
  match kind, kind' with
  | .frozen, _ => (h.walksEqual eq kind kind' es es').map some
  | .view, .frozen => (h.walksEqual eq kind' kind es' es).map some
  | .view, .view => (entriesEqual eq es' es).map some
  | .view, _ => (if plain' then entriesEqual eq es es' else entriesEqual eq es' es).map some
  | _, .view | _, .frozen => .ok none
  | .ordered, .ordered =>
    match entriesEqual eq es es' with
    | .error e => .error e
    | .ok false => .ok (some false)
    | .ok true =>
      (allEqual eq (es.map (·.1.value)) (es'.map (·.1.value))).map some
  | _, _ => (entriesEqual eq es es').map some

/-- What an object answers when asked whether it equals a value. -/
def objectOpinion (h : Heap) (eq : Comparison) (a : Address) (y : Value) :
    Except Fault (Option Bool) :=
  let same : Except Fault (Option Bool) := .ok (if y == .ref a then some true else none)
  let other : Option Object := match y with
    | .ref b => some (h.object b)
    | _ => none
  match (h.object a).body, other with
  | .sequence kind xs, some { body := .sequence kind' ys, .. } =>
    if kind != kind' then same
    else if kind != .tuple && xs.length != ys.length then .ok (some false)
    else (allEqual eq xs ys).map fun b => some (b && xs.length == ys.length)
  | .mapping kind es, some { body := .mapping kind' es', cls := cls', .. } =>
    h.mappingOpinion eq kind kind' (cls' == "dict") es es'
  | .members _ xs, some { body := .members _ ys, .. } => (membersEqual eq xs ys).map some
  | .octets bs, some { body := .octets cs, .. } => .ok (some (bs == cs))
  | .octets bs, none =>
    match y with
    | .bytes cs => .ok (some (bs == cs))
    | _ => same
  | .plain, _ =>
    match (h.classes (h.object a).cls).equality with
    | .identity => same
    | .fieldwise fields =>
      match y with
      | .ref b =>
        if (h.object b).cls != (h.object a).cls then .ok none
        else do
          let xs ← h.readFields a fields
          let ys ← h.readFields b fields
          (allEqual eq xs ys).map some
      | _ => .ok none
    | .custom compare => (compare h.objects a y).map fun v => some (h.truth v)
  | _, _ => same

/-- What the left operand answers; `none` leaves the answer to the other one. -/
def opinion (h : Heap) (eq : Comparison) (x y : Value) :
    Except Fault (Option Bool) :=
  match x with
  | .ref a => h.objectOpinion eq a y
  | _ => .ok (x.plainOpinion y)

/-- Whether the right operand is asked first. -/
def asksRightFirst (h : Heap) (l r : Value) : Bool :=
  let c := h.typeOf l
  let d := h.typeOf r
  c != d && h.isSubclass d c

/-- Equality of values whose members nest no deeper than the budget. -/
def equalWithin (h : Heap) : Nat → Value → Value → Except Fault Bool
  | 0, _, _ => .error .tooDeep
  | budget + 1, l, r =>
    let (x, y) := if h.asksRightFirst l r then (r, l) else (l, r)
    match h.opinion (h.equalWithin budget) x y with
    | .error e => .error e
    | .ok (some b) => .ok b
    | .ok none =>
      match h.opinion (h.equalWithin budget) y x with
      | .error e => .error e
      | .ok (some b) => .ok b
      | .ok none => .ok (l == r)

/-- Equality of values. A comparison that ends meets no pair of objects twice on its way
down, so a budget of one step for each pair is enough. -/
def equal (h : Heap) (l r : Value) : Except Fault Bool :=
  h.equalWithin (h.objects.size * h.objects.size + 1) l r

variable {ν : Type}

/-- What is filed under a value, if anything is. -/
def find? (h : Heap) (v : Value) (entries : List (Key × ν)) : Except Fault (Option ν) :=
  h.under? h.equal v entries

/-- What is filed under a value, which must be there. -/
def find (h : Heap) (v : Value) (entries : List (Key × ν)) : Except Fault ν :=
  h.under h.equal v entries

/-- Files something under a value: an entry with the key keeps its place and its key. -/
def file (h : Heap) (entries : List (Key × ν)) (v : Value) (x : ν) :
    Except Fault (List (Key × ν)) :=
  h.fileWith h.equal entries v x

/-- The entries without the one under a value, if there is one. -/
def withdraw? (h : Heap) (entries : List (Key × ν)) (v : Value) :
    Except Fault (Option (List (Key × ν))) :=
  match h.key v with
  | .error e => .error e
  | .ok key => Entries.remove (key.isFor h.equal) entries

/-- The entries without the one under a value, which must be there. -/
def withdraw (h : Heap) (entries : List (Key × ν)) (v : Value) : Except Fault (List (Key × ν)) :=
  match h.withdraw? entries v with
  | .error e => .error e
  | .ok none => .error (.keyError v)
  | .ok (some rest) => .ok rest

/-- The members of a set with a value added, unless it is there. -/
def addMember (h : Heap) (members : List Key) (v : Value) : Except Fault (List Key) :=
  match h.key v with
  | .error e => .error e
  | .ok key =>
    (members.anyM (key.isFor h.equal)).map fun found =>
      if found then members else members ++ [key]

/-- The keys of a mapping. -/
def walkKeys (h : Heap) (kind : MappingKind) (entries : List (Key × Value)) : Walk Value :=
  h.walkKeysWith h.equal kind entries

/-- The entries of a mapping. -/
def walkEntries (h : Heap) (kind : MappingKind) (entries : List (Key × Value)) :
    Walk (Value × Value) :=
  h.walkEntriesWith h.equal kind entries

end Assay.Heap
