import Assay.Number.Integer

/-! # Binary floating-point numbers

A finite number is a sign, a mantissa below 2^53 and a power of two not below 2^-1074,
so that every comparison and every reading of a decimal is exact arithmetic on integers.
What is not a number has an identity of its own and is kept with the values, not here.
-/

namespace Assay

/-- A number in the 64-bit binary format, or an infinity. -/
inductive Binary64 where
  | infinite (negative : Bool)
  /-- Plus or minus `mantissa * 2 ^ exponent`. -/
  | finite (negative : Bool) (mantissa : Nat) (exponent : Int)
  deriving DecidableEq, Repr, Inhabited

namespace Binary64

/-- The quotient rounded to the nearest integer, a half to the even neighbour. -/
def roundHalfEven (num den : Nat) : Nat :=
  let q := num / den
  let r := num % den
  if 2 * r < den then q else if den < 2 * r then q + 1 else if q % 2 = 0 then q else q + 1

/-- `n * base ^ e` as a quotient of naturals. -/
def scale (n base : Nat) (e : Int) : Nat × Nat :=
  if 0 ≤ e then (n * Nat.pow base e.toNat, 1) else (n, Nat.pow base (-e).toNat)

/-- Whether `a * b ^ e` is at most `n / d`. -/
def scaledLe (a b : Nat) (e : Int) (n d : Nat) : Bool :=
  let (p, q) := scale a b e
  p * d ≤ n * q

/-- The nearest number to `num / den`, a tie to the even mantissa. -/
def ofRatio (negative : Bool) (num den : Nat) : Binary64 :=
  if num = 0 then .finite negative 0 (-1074) else
  let guess : Int := (num.log2 : Int) - den.log2 - 53
  -- the quotient over 2 ^ guess lies between 2 ^ 52 and 2 ^ 54
  let exponent := if scaledLe (Nat.pow 2 53) 2 guess num den then guess + 1 else guess
  let exponent := max exponent (-1074)
  let (n, d) := if 0 ≤ exponent then (num, den * Nat.pow 2 exponent.toNat)
    else (num * Nat.pow 2 (-exponent).toNat, den)
  let mantissa := roundHalfEven n d
  let (mantissa, exponent) :=
    if mantissa = Nat.pow 2 53 then (Nat.pow 2 52, exponent + 1) else (mantissa, exponent)
  if 971 < exponent then .infinite negative else .finite negative mantissa exponent

/-- The nearest number to `digits * 10 ^ e`. Beyond 10^310 all is infinite, and below
10^-330 all is zero, so that no power is computed there. -/
def ofDecimal (negative : Bool) (digits : Nat) (e : Int) : Binary64 :=
  let top : Int := ((Nat.toDigits 10 digits).length : Int) + e
  if digits = 0 || top < -330 then .finite negative 0 (-1074)
  else if 310 < top then .infinite negative
  else
    let (num, den) := scale digits 10 e
    ofRatio negative num den

/-- The nearest number to an integer. -/
def ofInt (n : Int) : Binary64 :=
  ofRatio (n < 0) n.natAbs 1

/-- A finite number as a signed quotient of integers. -/
def toRatio? : Binary64 → Option (Int × Nat)
  | .infinite _ => none
  | .finite negative mantissa exponent =>
    let (num, den) := scale mantissa 2 exponent
    some (if negative then -num else num, den)

/-- Equality of the numbers meant: both zeros are equal. -/
def eqv (x y : Binary64) : Bool :=
  match x, y with
  | .infinite s, .infinite t => s == t
  | _, _ =>
    match x.toRatio?, y.toRatio? with
    | some (a, b), some (c, d) => a * d == c * b
    | _, _ => false

/-- Whether the number is exactly the given integer. -/
def eqInt (x : Binary64) (n : Int) : Bool :=
  match x.toRatio? with
  | some (a, b) => a == n * b
  | none => false

def isZero (x : Binary64) : Bool :=
  x.eqInt 0

/-- The integer left when the fraction is dropped. -/
def truncate? (x : Binary64) : Option Int :=
  x.toRatio?.map fun (a, b) => Int.tdiv a b

end Binary64

/-- What a text in decimal notation stands for. -/
inductive DecimalText where
  | notANumber
  | number (x : Binary64)
  deriving DecidableEq, Repr

namespace DecimalText

/-- Digits, where single underscores may stand between two of them. -/
def digits : List Char → List Char × List Char
  | [] => ([], [])
  | c :: rest =>
    if c.isDigit then
      let (ds, rest) := digits rest
      (c :: ds, rest)
    else
      match c, rest with
      | '_', d :: _ =>
        if d.isDigit then digits rest else ([], c :: rest)
      | _, _ => ([], c :: rest)

/-- The number that decimal digits write. -/
def natOf (ds : List Char) : Nat :=
  ds.foldl (fun n c => 10 * n + (c.toNat - '0'.toNat)) 0

/-- The exponent part, which may be missing. -/
def exponent? : List Char → Option Int
  | [] => some 0
  | c :: rest =>
    if c == 'e' || c == 'E' then
      let (negative, rest) := Integer.sign rest
      match digits rest with
      | ([], _) => none
      | (ds, []) => some (if negative then -(natOf ds : Int) else natOf ds)
      | _ => none
    else none

/-- Reads an unsigned number in positional or exponent notation. -/
def unsigned? (negative : Bool) (cs : List Char) : Option DecimalText :=
  let (whole, rest) := if cs.head? == some '_' then ([], cs) else digits cs
  let (fraction, rest) := match rest with
    | '.' :: tail => if tail.head? == some '_' then ([], tail) else digits tail
    | _ => ([], rest)
  if whole.isEmpty && fraction.isEmpty then none
  else (exponent? rest).map fun e =>
    .number (.ofDecimal negative (natOf (whole ++ fraction)) (e - fraction.length))

/-- Reads a number, an infinity or the text for what is not a number, around which blanks may
stand. -/
def ofString? (s : String) : Option DecimalText :=
  let (negative, cs) := Integer.sign ((Text.trimBlanks s.toList).map Text.asciiDigit)
  let word := String.ofList (cs.map Char.toLower)
  if word == "nan" then some .notANumber
  else if word == "inf" || word == "infinity" then some (.number (.infinite negative))
  else unsigned? negative cs

end DecimalText

end Assay
