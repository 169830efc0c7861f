import Assay.Heap.Access
import Assay.Heap.Text

/-! # Conversions

Numbers, bytes, durations and dictionaries that are made of other values, as far as these have
what it takes.
-/

namespace Assay

namespace Fault

/-- The refusal of a value where an integer is needed. -/
def noInteger (cls : String) : Fault :=
  typeError s!"'{cls}' object cannot be interpreted as an integer"

end Fault

namespace Heap

/-- The name that messages give the class of a value. -/
def kindName (h : Heap) (v : Value) : String := h.messageName (h.typeOf v)

/-- The absolute value of a number or a duration. -/
def absolute (h : Heap) (v : Value) : Except Fault Value :=
  match v.int?, v with
  | some n, _ => .ok (.int n.natAbs)
  | none, .float (.infinite _) => .ok (.float (.infinite false))
  | none, .float (.finite _ m e) => .ok (.float (.finite false m e))
  | none, .nan mark => .ok (.nan mark)
  | none, .duration d =>
    .ok (if d.days < 0 then .duration (.of (-d.days) (-d.seconds) (-d.microseconds)) else v)
  | none, _ => .error (.typeError
      s!"bad operand type for abs(): '{h.kindName v}'")

/-- The text in which a number can be read, and how it is shown if there is none: texts and
bytes of any kind. -/
def numeral? (h : Heap) (v : Value) : Option (String × String) :=
  match v, h.bodyOf v with
  | .text s, _ => some (s, Text.quote s)
  | .member m, _ => v.text?.map (·, Value.memberText m)
  | .bytes bs, _ => some (numeralText bs, Text.quoteBytes bs)
  | _, .octets bs => some (numeralText bs, Text.quoteBytes bs)
  | _, _ => none

/-- The integer made of a value. -/
def toInteger (h : Heap) (v : Value) : Except Fault Value :=
  match v.int?, h.numeral? v, v with
  | some n, _, _ => .ok (.int n)
  | _, some (s, shown), _ => (readIntegerShown shown 10 s).map .int
  | _, _, .nan _ => .error (.valueError "cannot convert float NaN to integer")
  | _, _, .float x =>
    match x.truncate? with
    | some n => .ok (.int n)
    | none => .error (.overflowError "cannot convert float infinity to integer")
  | _, _, _ => .error (.typeError
      s!"int() argument must be a string, a bytes-like object or a real number, not '{h.kindName v}'")

/-- The number made of a value. -/
def toFloat (h : Heap) (v : Value) : Heap × Except Fault Value :=
  let fresh : Heap × Except Fault Value :=
    let (h, mark) := h.alloc .blank
    (h, .ok (.nan mark))
  match v.int?, h.numeral? v, v with
  | some n, _, _ =>
    match Binary64.ofInt n with
    | .infinite _ => (h, .error (.overflowError "int too large to convert to float"))
    | x => (h, .ok (.float x))
  | _, some (s, shown), _ =>
    let shown := match h.bodyOf v with
      | .octets bs => "bytearray(" ++ Text.quoteOctets bs ++ ")"
      | _ => shown
    match readDecimalShown shown s with
    | .ok .notANumber => fresh
    | .ok (.number x) => (h, .ok (.float x))
    | .error e => (h, .error e)
  | _, _, .float _ | _, _, .nan _ => (h, .ok v)
  | _, _, _ => (h, .error (.typeError
      s!"float() argument must be a string or a real number, not '{h.kindName v}'"))

/-- The octets made of a value: zeros for an integer, which is their count, and else the numbers
that it yields. -/
def toOctets (h : Heap) (c : ClassName) (noun : String) (v : Value) : Except Fault (List UInt8) :=
  match v.int?, v.text? with
  | some n, _ =>
    if n < 0 then .error (.valueError "negative count")
    else if n.natAbs < Nat.pow 2 63 then .ok (List.replicate n.natAbs 0)
    else .error (.overflowError "cannot fit 'int' into an index-sized integer")
  | _, some _ => .error (.typeError "string argument without an encoding")
  | _, _ =>
    match h.items v with
    | .ok items => items.mapM (h.byteOf noun)
    | .error e =>
      if e == .notIterable (h.kindName v) then
        .error (.typeError s!"cannot convert '{h.kindName v}' object to {c}")
      else .error e

/-- The duration of so many days. -/
def toDuration (h : Heap) (v : Value) : Except Fault Value :=
  let ofDays (d : Duration) : Except Fault Value :=
    if d.days.natAbs ≤ 999999999 then .ok (.duration d)
    else .error (.overflowError s!"days={d.days}; must have magnitude <= 999999999")
  match v.int?, v with
  | some n, _ => ofDays (.of n 0 0)
  | _, .float x =>
    match x.toRatio? with
    | none => .error (.overflowError "cannot convert float infinity to integer")
    | some (num, den) =>
      let n : Int := Binary64.roundHalfEven (num.natAbs * 86400000000) den
      ofDays (.of 0 0 (if num < 0 then -n else n))
  | _, .nan _ => .error (.valueError "cannot convert float NaN to integer")
  | _, _ => .error (.typeError
      s!"unsupported type for timedelta days component: {h.kindName v}")

/-- Reads a pair for an ordered dictionary. -/
def pairOfTwo (h : Heap) (v : Value) : Except Fault (Value × Value) :=
  match h.items v with
  | .error e => .error e
  | .ok [k, x] => .ok (k, x)
  | .ok [] => .error (.valueError "need more than 0 values to unpack")
  | .ok [_] => .error (.valueError "need more than 1 value to unpack")
  | .ok _ => .error (.valueError "too many values to unpack (expected 2)")

/-- The entries of an ordered dictionary made of a value. What is in a plain dictionary is
filed anew; all other mappings are asked key by key. -/
def toOrdered (h : Heap) (v : Value) : Except Fault (List (Key × Value)) :=
  match h.shape v with
  | .mapping _ kind entries =>
    if kind == .dict && h.typeOf v == "dict" then
      h.fileWalk h.equal [] (h.walkEntries kind entries)
    else h.fileKeys entries [] (h.walkKeys kind entries)
  | _ =>
    match h.items v with
    | .error e => .error e
    | .ok items => h.fileWalk h.equal [] (items.map h.pairOfTwo)

end Heap

end Assay
