/-! # Halves of characters

Characters beyond the first plane can be written as two halves, each with a number of its own.
A text may hold a half alone. Such a half is kept as a character from the end of the last
private plane, which stands for nothing else.
-/

namespace Assay.Text

/-- The first number of a half. -/
def firstHalf : Nat := 0xd800

/-- How many halves there are. -/
def halfCount : Nat := 0x800

/-- The first character that stands for a half. -/
def halfStart : Nat := 0x10e000

/-- The number of the half that a character stands for. -/
def half? (c : Char) : Option Nat :=
  if halfStart ≤ c.toNat && c.toNat < halfStart + halfCount then
    some (c.toNat - halfStart + firstHalf)
  else none

/-- The number of a character or of a half. -/
def codePoint (c : Char) : Nat := (half? c).getD c.toNat

/-- The character of a number, or what stands for the half of that number. -/
def ofCodePoint (n : Nat) : Char :=
  if firstHalf ≤ n && n < firstHalf + halfCount then Char.ofNat (n - firstHalf + halfStart)
  else Char.ofNat n

/-- Whether a text comes before another in the order of code points, or is the same. -/
def precedes : List Char → List Char → Bool
  | [], _ => true
  | _ :: _, [] => false
  | a :: as, b :: bs =>
    codePoint a < codePoint b || (codePoint a == codePoint b && precedes as bs)

end Assay.Text
