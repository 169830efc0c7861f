import Assay.Number.Binary64

/-! # Numbers in base sixty

A number may be given in parts, each of which counts sixty of the part after it, as hours,
minutes and seconds do. Integers are exact; with binary numbers every step is rounded.
-/

namespace Assay

namespace Binary64

def neg : Binary64 → Binary64
  | .infinite negative => .infinite !negative
  | .finite negative mantissa exponent => .finite (!negative) mantissa exponent

def isNegative : Binary64 → Bool
  | .infinite negative | .finite negative _ _ => negative

/-- The sum, rounded to the nearest number. Opposite infinities have none. -/
def add? (x y : Binary64) : Option Binary64 :=
  match x.toRatio?, y.toRatio? with
  | some (a, b), some (c, d) =>
    let sum := a * d + c * b
    let negative := if sum = 0 then x.isNegative && y.isNegative else sum < 0
    some (ofRatio negative sum.natAbs (b * d))
  | some _, none => some y
  | none, some _ => some x
  | none, none => if x = y then some x else none

/-- The product, rounded to the nearest number. An infinity and zero have none. -/
def mul? (x y : Binary64) : Option Binary64 :=
  let negative := x.isNegative != y.isNegative
  match x.toRatio?, y.toRatio? with
  | some (a, b), some (c, d) => some (ofRatio negative (a * c).natAbs (b * d))
  | _, _ => if x.isZero || y.isZero then none else some (.infinite negative)

end Binary64

namespace DecimalText

/-- The result of an operation on two numbers; what is not a number has no other result. -/
def combine (op : Binary64 → Binary64 → Option Binary64) : DecimalText → DecimalText → DecimalText
  | .number x, .number y => (op x y).elim .notANumber .number
  | _, _ => .notANumber

def neg : DecimalText → DecimalText
  | .notANumber => .notANumber
  | .number x => .number x.neg

/-- Adds parts to a sum, the last part first, which counts units of the given size. A size too
large for a number is no size. -/
def addSixtieths (sum : DecimalText) (unit : Nat) : List DecimalText → Option DecimalText
  | [] => some sum
  | part :: rest =>
    match Binary64.ofInt unit with
    | .infinite _ => none
    | size =>
      let share := combine Binary64.mul? part (.number size)
      addSixtieths (combine Binary64.add? sum share) (60 * unit) rest

/-- The number that parts in base sixty write. -/
def ofSixtieths? (parts : List DecimalText) : Option DecimalText :=
  addSixtieths (.number (.finite false 0 (-1074))) 1 parts.reverse

end DecimalText

/-- The integer that parts in base sixty write. -/
def Integer.ofSixtieths (parts : List Int) : Int := parts.foldl (60 * · + ·) 0

end Assay
