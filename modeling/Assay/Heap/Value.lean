import Assay.Calendar
import Assay.Number.Shortest

/-! # Values

A value is either plain data or a reference to an object on the heap. Two values are the
same object exactly when they are equal here: everything that has an identity of its own
is a reference, or, for what is not a number, carries a mark that tells it from all others.
-/

namespace Assay

/-- Where an object lives. -/
abbrev Address := Nat

/-- Classes are known by their names. -/
abbrev ClassName := String

/-- What an enumeration member stands for. -/
inductive Payload where
  | number (n : Int)
  | text (s : String)
  deriving DecidableEq, Repr

/-- A member of an enumeration. -/
structure Member where
  cls : ClassName
  name : String
  payload : Payload
  /-- The member is itself the number or text it stands for, and compares like it. -/
  transparent : Bool := false
  deriving DecidableEq, Repr

/-- A value a clause can be about. -/
inductive Value where
  | null
  | bool (b : Bool)
  | int (n : Int)
  | float (x : Binary64)
  /-- What is not a number; the mark is unique to the object. -/
  | nan (mark : Address)
  | text (s : String)
  | bytes (bs : List UInt8)
  | pattern (source : String) (flags : Nat)
  | member (m : Member)
  | range (start stop step : Int)
  | date (d : Date)
  | moment (m : Moment)
  | duration (d : Duration)
  | cls (name : ClassName)
  | function (name : String)
  | ref (a : Address)
  deriving DecidableEq, Repr, Inhabited

namespace Value

/-- The integer a value is, for truth values, integers and members that are integers. -/
def int? : Value → Option Int
  | .bool b => some (if b then 1 else 0)
  | .int n => some n
  | .member { payload := .number n, transparent := true, .. } => some n
  | _ => none

/-- The text a value is, for texts and members that are texts. -/
def text? : Value → Option String
  | .text s => some s
  | .member { payload := .text s, transparent := true, .. } => some s
  | _ => none

/-- Members of a set by size, as far as they are all integers. -/
def inSetOrder (items : List Value) : List Value :=
  match items.mapM int? with
  | some ns => ((ns.zip items).mergeSort fun a b => a.1 ≤ b.1).map (·.2)
  | none => items

/-- How many numbers a range produces. -/
def rangeLength (start stop step : Int) : Nat :=
  if 0 < step then ((stop - start + step - 1).fdiv step).toNat
  else if step < 0 then ((start - stop - step - 1).fdiv (-step)).toNat
  else 0

/-- The numbers a range produces. -/
def rangeItems (start stop step : Int) : List Int :=
  (List.range (rangeLength start stop step)).map fun (i : Nat) => start + step * i

/-- Ranges are equal when they produce the same numbers. -/
def rangeEq (start stop step start' stop' step' : Int) : Bool :=
  let n := rangeLength start stop step
  n == rangeLength start' stop' step' &&
    (n == 0 || start == start' && (n == 1 || step == step'))

/-- What the left operand answers when asked whether it equals another plain value; `none`
leaves the answer to the other operand. -/
def plainOpinion (x y : Value) : Option Bool :=
  match x.int?, y.int? with
  | some m, some n => some (m == n)
  | _, _ =>
  match x.text?, y.text? with
  | some s, some t => some (s == t)
  | _, _ =>
  match x, y with
  | .float f, .float g => some (f.eqv g)
  | .float f, _ => match y with
    | .nan _ => some false
    | _ => y.int?.map f.eqInt
  | .nan _, .float _ | .nan _, .nan _ => some false
  | .bytes bs, .bytes cs => some (bs == cs)
  | .pattern s f, .pattern t g => some (s == t && f == g)
  | .range a b c, .range a' b' c' => some (rangeEq a b c a' b' c')
  | .date d, .date e => some (d == e)
  | .date _, .moment _ | .moment _, .date _ => some false
  | .moment m, .moment n => some (m.eqv n)
  | .duration d, .duration e => some (d == e)
  | _, _ => if x == y then some true else none

end Value

end Assay
