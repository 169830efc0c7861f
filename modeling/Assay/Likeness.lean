import Assay.Heap.Fields

/-! # Likeness of values

Two values are alike when their classes are the same and their contents are alike, whatever
objects hold them. Composites that were entered before, on either side, are alike only as
the very same object. Mappings are compared by size and by looking up every left key on the
right, where a missing key reads as null.
-/

namespace Assay

/-- `none` where two values differ; otherwise the composites entered so far. -/
abbrev Likeness := Except Fault (Option (List Address))

/-- Compares pairs one after the other, as long as they are alike. -/
def likeEach (like : List Address → Value → Value → Likeness) :
    List Address → Walk (Value × Value) → Likeness
  | seen, [] => .ok (some seen)
  | _, .error e :: _ => .error e
  | seen, .ok (x, y) :: rest =>
    match like seen x y with
    | .ok (some seen) => likeEach like seen rest
    | other => other

namespace Heap

/-- Pairs every left field with its right counterpart. Classes and leaves are checked here;
what is left are the pairs of composites, in order. `none` where something differs. -/
def pendingFields (h : Heap) (rs : List (Key × Value)) :
    List (Key × Value) → Except Fault (Option (List (Value × Value)))
  | [] => .ok (some [])
  | (name, l) :: rest =>
    match h.find name.value rs with
    | .error e => .error e
    | .ok r =>
      if h.typeOf l != h.typeOf r then .ok none
      else if h.isLeaf l then
        match h.leafEqual l r with
        | .error e => .error e
        | .ok false => .ok none
        | .ok true => pendingFields h rs rest
      else (pendingFields h rs rest).map (·.map ((l, r) :: ·))

/-- The fields of two objects that have to be alike. Objects whose fields have not the same
names differ. -/
def fieldPairs (h : Heap) (a b : Address) : Except Fault (Option (List (Value × Value))) := do
  let ls ← h.fields a
  let rs ← h.fields b
  if ← membersEqual h.equal (ls.map (·.1)) (rs.map (·.1)) then h.pendingFields rs ls
  else return none

/-- Every left entry with what is found under its key on the right, null where nothing is. -/
def entryPairs (h : Heap) (rs : List (Key × Value)) (ls : Walk (Value × Value)) :
    Walk (Value × Value) :=
  ls.map fun entry => do
    let (k, v) ← entry
    return (v, (← h.find? k rs).getD .null)

/-- The members of two composites that have to be alike, or `none` where the composites
already differ. -/
def likePairs (h : Heap) : Shape → Shape → Except Fault (Option (Walk (Value × Value)))
  | .sequence _ xs, .sequence _ ys =>
    .ok (if xs.length == ys.length then some ((xs.zip ys).map .ok) else none)
  | .mapping _ kind ls, .mapping _ _ rs =>
    .ok (if ls.length == rs.length then some (h.entryPairs rs (h.walkEntries kind ls)) else none)
  | .structured a, .structured b => (h.fieldPairs a b).map (·.map (·.map .ok))
  | _, _ => .ok none

/-- Marks a composite as entered. -/
def enterComposite (seen : List Address) (a : Address) : List Address :=
  if seen.contains a then seen else seen ++ [a]

/-- Likeness of values whose composites nest no deeper than the budget. -/
def likeWithin (h : Heap) : Nat → List Address → Value → Value → Likeness
  | 0, _, _, _ => .error .tooDeep
  | budget + 1, seen, l, r =>
    if h.typeOf l != h.typeOf r then .ok none
    else
      let left := h.shape l
      match left.address? with
      | none => (h.leafEqual l r).map fun b => if b then some seen else none
      | some a =>
        let right := h.shape r
        match right.address? with
        | none => .ok none
        | some b =>
          if seen.contains a || seen.contains b then
            .ok (if a == b then some seen else none)
          else
            match h.likePairs left right with
            | .error e => .error e
            | .ok none => .ok none
            | .ok (some pairs) =>
              likeEach (h.likeWithin budget) (enterComposite (enterComposite seen a) b) pairs

/-- Whether two values are alike, given the composites that count as entered. Every step down
enters another composite, so one step for each object is enough. -/
def likeFrom (h : Heap) (seen : List Address) (l r : Value) : Except Fault Bool :=
  (h.likeWithin (h.objects.size + 1) seen l r).map (·.isSome)

/-- Whether two values are alike. -/
def like (h : Heap) (l r : Value) : Except Fault Bool := h.likeFrom [] l r

end Heap

end Assay
