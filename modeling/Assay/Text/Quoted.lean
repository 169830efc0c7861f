import Assay.Text.Half
import Assay.Text.Printable

/-! # Quoted text

Text stands between single quotes, or between double quotes when it holds a single quote
and no double one. What is not printable is written by its code point, with two, four or
eight digits to the base sixteen.
-/

namespace Assay.Text

/-- Lower-case digits to the base sixteen, with zeros in front up to `width`. -/
def hexDigits (width n : Nat) : List Char :=
  let digits := Nat.toDigits 16 n
  List.replicate (width - digits.length) '0' ++ digits

/-- The quote that encloses a text: double only when it saves every escape. -/
def enclosingQuote (cs : List Char) : Char :=
  if cs.contains '\'' && !cs.contains '"' then '"' else '\''

/-- How one character of a text is written between quotes. -/
def escapeChar (quote c : Char) : List Char :=
  if c == quote || c == '\\' then ['\\', c]
  else if c == '\n' then ['\\', 'n']
  else if c == '\r' then ['\\', 'r']
  else if c == '\t' then ['\\', 't']
  else if isPrintable c then [c]
  else if codePoint c < 0x100 then '\\' :: 'x' :: hexDigits 2 (codePoint c)
  else if codePoint c < 0x10000 then '\\' :: 'u' :: hexDigits 4 (codePoint c)
  else '\\' :: 'U' :: hexDigits 8 (codePoint c)

/-- A text in quotes. -/
def quote (s : String) : String :=
  let cs := s.toList
  let q := enclosingQuote cs
  String.ofList (q :: cs.flatMap (escapeChar q) ++ [q])

/-- How one byte is written between quotes: as the ASCII character it is, if that prints. -/
def escapeByte (quote : Char) (b : UInt8) : List Char :=
  let c := Char.ofNat b.toNat
  if c == quote || c == '\\' then ['\\', c]
  else if c == '\n' then ['\\', 'n']
  else if c == '\r' then ['\\', 'r']
  else if c == '\t' then ['\\', 't']
  else if 0x20 ≤ b.toNat && b.toNat < 0x7f then [c]
  else '\\' :: 'x' :: hexDigits 2 b.toNat

/-- Bytes in quotes, marked with a `b`. -/
def quoteBytes (bs : List UInt8) : String :=
  let q := enclosingQuote (bs.map fun b => Char.ofNat b.toNat)
  String.ofList ('b' :: q :: bs.flatMap (escapeByte q) ++ [q])

/-- The bytes of a changeable array in quotes: a single quote is escaped between any quotes. -/
def quoteOctets (bs : List UInt8) : String :=
  let q := enclosingQuote (bs.map fun b => Char.ofNat b.toNat)
  String.ofList ('b' :: q :: bs.flatMap (escapeByte '\'') ++ [q])

end Assay.Text
