import Assay.Heap.Basic
import Assay.Number.Binary64
import Assay.Text.Quoted

/-! # Texts as numbers

Reading a number from a text fails with an exception that quotes the text.
-/

namespace Assay

namespace Fault

def overflowError (message : String) : Fault := ⟨"OverflowError", [.text message]⟩

/-- The refusal of an integer with too many digits; how many is told where they are given. -/
def tooManyDigits (given : Option Nat) : Fault :=
  let limit := s!"Exceeds the limit ({Integer.digitLimit} digits) for integer string conversion"
  let count := match given with
    | none => ""
    | some n => s!": value has {n} digits"
  .valueError s!"{limit}{count}; use sys.set_int_max_str_digits() to increase the limit"

end Fault

/-- The integer in a text, which the exception shows up to two hundred characters. -/
def readIntegerShown (shown : String) (base : Nat) (s : String) : Except Fault Int :=
  match Integer.read base s with
  | .ok n => .ok n
  | .error (.tooLong digits) => .error (.tooManyDigits (some digits))
  | .error .malformed =>
    let start := String.ofList (shown.toList.take 200)
    .error (.valueError s!"invalid literal for int() with base {base}: {start}")

/-- The integer in a text. -/
def readInteger (base : Nat) (s : String) : Except Fault Int :=
  readIntegerShown (Text.quote s) base s

/-- The number in a text, which the exception shows. -/
def readDecimalShown (shown s : String) : Except Fault DecimalText :=
  match DecimalText.ofString? s with
  | some x => .ok x
  | none => .error (.valueError s!"could not convert string to float: {shown}")

/-- The number in a text. -/
def readDecimal (s : String) : Except Fault DecimalText := readDecimalShown (Text.quote s) s

/-- The text that bytes stand for where a number is read. What can be part of no number is a
question mark. -/
def numeralText (bs : List UInt8) : String :=
  String.ofList (bs.map fun b =>
    if b < 0x80 && !(0x1c ≤ b && b < 0x20) then Char.ofNat b.toNat else '?')

/-- An integer in base ten. -/
def writeInteger (n : Int) : Except Fault String :=
  if Integer.isWritable n then .ok (toString n) else .error (.tooManyDigits none)

end Assay
