import Assay.Heap.Value

/-! # Keys and their digests

A container files a key under the digest that the key has when it is entered. The digest stays
as it was when the key changes later, so that a changed key can be lost in its own container.
Equal values have equal digests. Values of different kinds may share one, which does not mix
them up: what is found under a digest is compared before it is taken.
-/

namespace Assay

/-- The code of numbers that a key is filed under. -/
abbrev Digest := List Int

namespace Digest

/-- Numbers are filed by their residue modulo a prime, for which two to the power of 61 is one. -/
def modulus : Nat := 2305843009213693951

/-- The digest of a number, given its sign and the residue of its absolute value. Minus one is
filed as minus two. -/
def ofResidue (negative : Bool) (residue : Nat) : Digest :=
  let n : Int := if negative then -residue else residue
  [0, if n == -1 then -2 else n]

def ofInt (n : Int) : Digest :=
  ofResidue (n < 0) (n.natAbs % modulus)

/-- The digest of a number in binary notation; for an integer it is that of the integer. -/
def ofBinary64 : Binary64 → Digest
  | .infinite negative => [0, if negative then -314159 else 314159]
  | .finite negative mantissa exponent =>
    ofResidue negative (mantissa * Nat.pow 2 (exponent % 61).toNat % modulus)

/-- The digest of what is made of units. What has none is filed as zero. -/
def ofUnits (units : List Nat) : Digest :=
  if units.isEmpty then ofInt 0
  else 1 :: (units.length : Int) :: units.map fun (n : Nat) => (n : Int)

def ofText (s : String) : Digest :=
  ofUnits (s.toList.map Char.toNat)

/-- The digest of members in order. -/
def ofTuple (members : List Digest) : Digest :=
  2 :: (members.length : Int) :: members.flatten

/-- Digests in the order of their first numbers that differ. -/
def precedes : Digest → Digest → Bool
  | [], _ => true
  | _ :: _, [] => false
  | m :: ms, n :: ns => m < n || m == n && precedes ms ns

/-- The digest of members in any order. -/
def ofMembers (members : List Digest) : Digest :=
  3 :: (members.length : Int) :: (members.mergeSort precedes).flatten

/-- A date is filed by its octets, with two for the year. -/
def ofDate (d : Date) : Digest :=
  ofUnits [d.year / 256, d.year % 256, d.month, d.day]

def ofDuration (d : Duration) : Digest :=
  ofTuple [ofInt d.days, ofInt d.seconds, ofInt d.microseconds]

/-- A moment is filed by its octets, with three for the microseconds; where its instant is
known, by that. -/
def ofMoment (m : Moment) : Digest :=
  match m.offset with
  | some offset => ofDuration (.of 0 0 (m.instant offset))
  | none =>
    ofUnits [m.date.year / 256, m.date.year % 256, m.date.month, m.date.day, m.hour, m.minute,
      m.second, m.microsecond / 65536, m.microsecond / 256 % 256, m.microsecond % 256]

end Digest

namespace Value

/-- The digest of a value that is no reference, or of the identity of an object. -/
def digest : Value → Digest
  | .null => [4]
  | .bool b => .ofInt (if b then 1 else 0)
  | .int n => .ofInt n
  | .float x => .ofBinary64 x
  | .nan mark => [5, mark]
  | .text s => .ofText s
  | .bytes bs => .ofUnits (bs.map UInt8.toNat)
  | .pattern source flags => 6 :: (flags : Int) :: Digest.ofText source
  | .member m =>
    match m.transparent, m.payload with
    | true, .number n => .ofInt n
    | true, .text s => .ofText s
    | false, _ => .ofText m.name
  | .range start stop step =>
    match rangeLength start stop step with
    | 0 => .ofTuple [.ofInt 0, [4], [4]]
    | 1 => .ofTuple [.ofInt 1, .ofInt start, [4]]
    | n => .ofTuple [.ofInt n, .ofInt start, .ofInt step]
  | .date d => .ofDate d
  | .moment m => .ofMoment m
  | .duration d => .ofDuration d
  | .cls name => 7 :: Digest.ofText name
  | .function name => 8 :: Digest.ofText name
  | .ref a => [9, a]

end Value

/-- A key in a container, with the digest it is filed under. -/
structure Key where
  value : Value
  digest : Digest
  deriving DecidableEq, Repr, Inhabited

namespace Key

/-- Plain data, which never changes, as a key. -/
def plain (v : Value) : Key := ⟨v, v.digest⟩

def text (s : String) : Key := plain (.text s)

/-- The members of a set in the order in which they are told. -/
def inSetOrder (members : List Key) : List Value :=
  Value.inSetOrder (members.map Key.value)

/-- Whether the key reads as a text. -/
def isText (k : Key) (s : String) : Bool := k.value.text? == some s

end Key

end Assay
