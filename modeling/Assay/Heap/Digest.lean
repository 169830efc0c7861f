import Assay.Heap.Basic

/-! # Digests of values

What can be a key has a digest. That of an object is made of the fields it is compared by, or
of its identity; that of a set is made of the digests its members are filed under.
-/

namespace Assay.Heap

/-- Reads the named fields of an object, each of which must have a value. -/
def readFields (h : Heap) (a : Address) : List String → Except Fault (List Value)
  | [] => .ok []
  | name :: rest =>
    match h.attribute? a name with
    | none => .error (.noAttribute (h.messageName (h.object a).cls) name)
    | some v => (readFields h a rest).map (v :: ·)

/-- The digest of a value whose members nest no deeper than the budget. -/
def digestWithin (h : Heap) : Nat → Value → Except Fault Digest
  | 0, _ => .error .tooDeep
  | budget + 1, v =>
    match v with
    | .ref a =>
      let o := h.object a
      let refuse : Except Fault Digest := .error (.unhashable (h.messageName o.cls))
      match o.body with
      | .sequence .tuple items => (items.mapM (h.digestWithin budget)).map .ofTuple
      | .sequence _ _ | .mapping _ _ | .members false _ | .octets _ => refuse
      | .members true items => .ok (.ofMembers (items.map Key.digest))
      | .error _ => .ok v.digest
      | .plain =>
        match (h.classes o.cls).hashing with
        | .identity => .ok v.digest
        | .none => refuse
        | .fieldwise fields => do
          let vs ← h.readFields a fields
          return .ofTuple (← vs.mapM (h.digestWithin budget))
    | _ => .ok v.digest

/-- The digest that a value has now; it fails on values that cannot be keys, or that hold such
values. -/
def digest (h : Heap) (v : Value) : Except Fault Digest :=
  h.digestWithin (h.objects.size + 1) v

/-- A value as a key. -/
def key (h : Heap) (v : Value) : Except Fault Key :=
  (h.digest v).map (⟨v, ·⟩)

end Assay.Heap
