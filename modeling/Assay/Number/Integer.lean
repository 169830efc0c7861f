import Assay.Text.Digit

/-! # Integers in a base

An integer is written with a sign, a mark of its base and digits, of which the sign and the mark
may be missing. Single underscores may stand between digits. How many digits can be read or
written in base ten is limited.
-/

namespace Assay.Integer

/-- Why a text is not read as an integer. -/
inductive Failure where
  | malformed
  | tooLong (digits : Nat)
  deriving DecidableEq, Repr

/-- How many digits in base ten an integer can have to be read or written. -/
def digitLimit : Nat := 4300

/-- Whether the number of digits is limited: not in bases that are powers of two. -/
def isLimited (base : Nat) : Bool := Nat.pow 2 base.log2 != base

/-- Whether an integer can be written in base ten. -/
def isWritable (n : Int) : Bool := n.natAbs < Nat.pow 10 digitLimit

/-- An optional sign, and what follows it. -/
def sign : List Char → Bool × List Char
  | '-' :: rest => (true, rest)
  | '+' :: rest => (false, rest)
  | cs => (false, cs)

/-- The letter that marks a base. -/
def baseLetter? (base : Nat) : Option Char :=
  if base == 16 then some 'x' else if base == 8 then some 'o' else if base == 2 then some 'b'
  else none

/-- Goes past the mark of a base, which an underscore may follow. -/
def pastBaseMark (base : Nat) (cs : List Char) : List Char :=
  match cs with
  | '0' :: letter :: rest =>
    if baseLetter? base == some letter.toLower then
      if rest.head? == some '_' then rest.tail else rest
    else cs
  | _ => cs

/-- Whether underscores stand between digits only, and one by one. -/
def isWellSpaced : List Char → Bool
  | [] => true
  | ['_'] => false
  | '_' :: '_' :: _ => false
  | _ :: rest => isWellSpaced rest

/-- The number that digits write. -/
def ofDigits (base : Nat) (digits : List Nat) : Nat :=
  digits.foldl (fun n d => base * n + d) 0

/-- Reads an integer, around which blanks may stand. -/
def read (base : Nat) (s : String) : Except Failure Int :=
  let (negative, cs) := sign (s.toList.dropWhile Text.isBlank)
  let cs := pastBaseMark base cs
  let isPart (c : Char) : Bool := c == '_' || (Text.digit? c).any (· < base)
  let digits := (cs.takeWhile isPart).filterMap Text.digit?
  if cs.head? == some '_' || !isWellSpaced (cs.takeWhile isPart) || digits.isEmpty then
    .error .malformed
  else if isLimited base && digitLimit < digits.length then .error (.tooLong digits.length)
  else if !(cs.dropWhile isPart).all Text.isBlank then .error .malformed
  else
    let n : Int := ofDigits base digits
    .ok (if negative then -n else n)

end Assay.Integer
