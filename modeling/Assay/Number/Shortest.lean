import Assay.Number.Binary64

/-! # Shortest decimal text

A number is written with the fewest digits that read back as the same number; of two such
decimals the nearer one is taken. Numbers from 10^-4 up to below 10^16 are written
positionally with at least one decimal place, all others with an exponent of at least two
digits.
-/

namespace Assay.Binary64

/-- The largest power of ten that is not above `num / den`, for a positive quotient. -/
def decimalExponent (num den : Nat) : Int :=
  let guess : Int := (Nat.toDigits 10 num).length - (Nat.toDigits 10 den).length
  if scaledLe 1 10 guess num den then guess else guess - 1

/-- The values that read back as `mantissa * 2 ^ exponent`: the two ends, in quarters of
the unit `2 ^ exponent`, and whether the ends belong to them. -/
structure Interval where
  low : Nat
  high : Nat
  closed : Bool

/-- Below a power of two the neighbour is only half as far. -/
def readsBack (mantissa : Nat) (exponent : Int) : Interval where
  low := if mantissa = Nat.pow 2 52 && decide (-1074 < exponent) then 4 * mantissa - 1
    else 4 * mantissa - 2
  high := 4 * mantissa + 2
  closed := mantissa % 2 = 0

/-- Whether `c * 10 ^ s` lies in the interval, whose unit is `2 ^ (exponent - 2)`. -/
def Interval.contains (i : Interval) (exponent : Int) (c : Nat) (s : Int) : Bool :=
  let (p, q) := scale c 10 s
  let (low, den) := scale i.low 2 (exponent - 2)
  let (high, den') := scale i.high 2 (exponent - 2)
  if i.closed then low * q ≤ p * den && p * den' ≤ high * q
  else low * q < p * den && p * den' < high * q

/-- The decimal with `n` digits that reads back, if there is one: one of the two neighbours
of the value on that grid, the nearer one when both do. -/
def withDigits? (mantissa : Nat) (exponent : Int) (top : Int) (n : Nat) : Option (Nat × Int) :=
  let (num, den) := scale mantissa 2 exponent
  let s := top - n + 1
  -- value / 10 ^ s
  let (a, b) := if 0 ≤ s then (num, den * Nat.pow 10 s.toNat)
    else (num * Nat.pow 10 (-s).toNat, den)
  let below := a / b
  let i := readsBack mantissa exponent
  match i.contains exponent below s, i.contains exponent (below + 1) s with
  | true, true => some (roundHalfEven a b, s)
  | true, false => some (below, s)
  | false, true => some (below + 1, s)
  | false, false => none

/-- The shortest decimal `c * 10 ^ s` that reads back as a positive number. -/
def shortest (mantissa : Nat) (exponent : Int) : Nat × Int :=
  let (num, den) := scale mantissa 2 exponent
  let top := decimalExponent num den
  ((List.range' 1 17).findSome? (withDigits? mantissa exponent top)).getD (0, 0)

/-- Digits without the zeros at the end. -/
def significant (c : Nat) : List Char :=
  match ((Nat.toDigits 10 c).reverse.dropWhile (· == '0')).reverse with
  | [] => ['0']
  | ds => ds

/-- The exponent part of a text: a sign and at least two digits. -/
def exponentText (p : Int) : List Char :=
  let digits := Nat.toDigits 10 p.natAbs
  ['e', if p < 0 then '-' else '+'] ++ List.replicate (2 - digits.length) '0' ++ digits

/-- Lays out digits whose first one counts `10 ^ p`. -/
def layOut (ds : List Char) (p : Int) : List Char :=
  if p < -4 || 16 ≤ p then
    match ds with
    | [d] => d :: exponentText p
    | d :: rest => d :: '.' :: rest ++ exponentText p
    | [] => []
  else if p < 0 then
    ['0', '.'] ++ List.replicate (-p - 1).toNat '0' ++ ds
  else
    let n := (p + 1).toNat
    let whole := ds.take n ++ List.replicate (n - ds.length) '0'
    match ds.drop n with
    | [] => whole ++ ['.', '0']
    | fraction => whole ++ '.' :: fraction

/-- The text of a positive number. -/
def positiveText (mantissa : Nat) (exponent : Int) : List Char :=
  let (c, s) := shortest mantissa exponent
  layOut (significant c) (s + (Nat.toDigits 10 c).length - 1)

/-- The text of a number. -/
def text : Binary64 → String
  | .infinite negative => if negative then "-inf" else "inf"
  | .finite negative mantissa exponent =>
    let body := if mantissa = 0 then ['0', '.', '0'] else positiveText mantissa exponent
    String.ofList (if negative then '-' :: body else body)

end Assay.Binary64
