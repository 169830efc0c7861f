import Assay.Heap.Digest

/-! # Looking up keys and walking through mappings

A key is found under its digest: an entry has the key if it is filed under the same digest and
the key in it is the same object or equal. A dictionary is walked through as it lies. An ordered
one, and a mapping that is no dictionary, look their own keys up on the way, so that a walk
fails at a key that has changed since it was entered.
-/

namespace Assay

/-- How two values are compared. -/
abbrev Comparison := Value → Value → Except Fault Bool

/-- What a walk yields one after the other. The first failure ends it. -/
abbrev Walk (α : Type) := List (Except Fault α)

/-- All that a walk yields, if it comes to its end. -/
def Walk.all {α : Type} : Walk α → Except Fault (List α)
  | [] => .ok []
  | .error e :: _ => .error e
  | .ok x :: rest => (Walk.all rest).map (x :: ·)

/-- Members that are the same object are equal, all others are compared. -/
def sameOr (eq : Comparison) (x y : Value) : Except Fault Bool :=
  if x == y then .ok true else eq x y

/-- Whether the key of an entry is the one looked for. -/
def Key.isFor (eq : Comparison) (key k : Key) : Except Fault Bool :=
  if k.digest == key.digest then sameOr eq k.value key.value else .ok false

namespace Heap

variable {ν : Type}

/-- What is filed under a value, if anything is. -/
def under? (h : Heap) (eq : Comparison) (v : Value) (entries : List (Key × ν)) :
    Except Fault (Option ν) :=
  match h.key v with
  | .error e => .error e
  | .ok key => Entries.search (key.isFor eq) entries

/-- What is filed under a value, which must be there. -/
def under (h : Heap) (eq : Comparison) (v : Value) (entries : List (Key × ν)) :
    Except Fault ν :=
  match h.under? eq v entries with
  | .error e => .error e
  | .ok none => .error (.keyError v)
  | .ok (some x) => .ok x

/-- Files something under a value. -/
def fileWith (h : Heap) (eq : Comparison) (entries : List (Key × ν)) (v : Value) (x : ν) :
    Except Fault (List (Key × ν)) :=
  match h.key v with
  | .error e => .error e
  | .ok key => Entries.enter (key.isFor eq) key x entries

/-- The refusal of a walk that loses a key. A tuple is told by its members. -/
def lostKey (h : Heap) (v : Value) : Fault :=
  match v with
  | .ref a =>
    match (h.object a).body with
    | .sequence .tuple items => ⟨"KeyError", items⟩
    | _ => .keyError v
  | _ => .keyError v

/-- What a mapping finds under a key of its own. -/
def underOwn (h : Heap) (eq : Comparison) (v : Value) (entries : List (Key × ν)) :
    Except Fault ν :=
  match h.under? eq v entries with
  | .error e => .error e
  | .ok none => .error (h.lostKey v)
  | .ok (some x) => .ok x

/-- Walks through ordered keys from a place on. The walk goes on behind the place where the key
is found. -/
def orderedPlaces (h : Heap) (eq : Comparison) (keys : List Key) : Nat → Nat → Walk (Value × Nat)
  | 0, place => if place < keys.length then [.error .tooDeep] else []
  | limit + 1, place =>
    match keys[place]? with
    | none => []
    | some k =>
      match h.underOwn eq k.value keys.zipIdx with
      | .error e => [.error e]
      | .ok found => .ok (k.value, found) :: h.orderedPlaces eq keys limit (found + 1)

/-- The keys of a mapping. -/
def walkKeysWith (h : Heap) (eq : Comparison) (kind : MappingKind) (entries : List (Key × Value)) :
    Walk Value :=
  let keys := entries.map (·.1)
  match kind with
  | .ordered => (h.orderedPlaces eq keys keys.length 0).map (·.map (·.1))
  | _ => keys.map fun k => .ok k.value

/-- The entries of a mapping. -/
def walkEntriesWith (h : Heap) (eq : Comparison) (kind : MappingKind)
    (entries : List (Key × Value)) : Walk (Value × Value) :=
  let keys := entries.map (·.1)
  match kind with
  | .ordered =>
    (h.orderedPlaces eq keys keys.length 0).map
      (·.map fun (k, place) => (k, (entries[place]?.map (·.2)).getD .null))
  | .frozen => keys.map fun k => (h.under eq k.value entries).map (k.value, ·)
  | _ => entries.map fun (k, v) => .ok (k.value, v)

/-- Files what a walk yields, one after the other. -/
def fileWalk (h : Heap) (eq : Comparison) (filed : List (Key × Value)) :
    Walk (Value × Value) → Except Fault (List (Key × Value))
  | [] => .ok filed
  | .error e :: _ => .error e
  | .ok (k, v) :: rest =>
    match h.fileWith eq filed k v with
    | .error e => .error e
    | .ok filed => h.fileWalk eq filed rest

end Heap

end Assay
