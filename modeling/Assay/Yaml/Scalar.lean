import Assay.Number.Sexagesimal
import Assay.Text.Base64
import Assay.Text.Lowercase
import Assay.Yaml.Tag

/-! # The meaning of scalars

The tag of a scalar tells how its text is read. A tag may be written in front of any text, so
reading takes more than what is recognised without one, and fails on all else.
-/

namespace Assay.Yaml

/-- What a scalar means. -/
inductive Meaning where
  | value (v : Value)
  /-- What is not a number: the one that has a word of its own, or another one each time. -/
  | notANumber (common : Bool)
  deriving DecidableEq, Repr

namespace Scalar

/-- A sign, and what follows it. There must be something to read. -/
def signed (text : String) : Except Fault (Bool × List Char) :=
  if text.isEmpty then .error (.indexError "string index out of range")
  else .ok (Integer.sign text.toList)

/-- A text without the underscores in it. -/
def withoutUnderscores (text : String) : String := String.ofList (text.toList.filter (· != '_'))

/-- The integer that characters write: its first characters tell the base. -/
def natural (cs : List Char) : Except Fault Int :=
  match cs with
  | [] => .error (.indexError "string index out of range")
  | ['0'] => .ok 0
  | '0' :: 'b' :: digits => readInteger 2 (String.ofList digits)
  | '0' :: 'x' :: digits => readInteger 16 (String.ofList digits)
  | '0' :: _ => readInteger 8 (String.ofList cs)
  | _ => do
    let parts ← (Tag.colonParts cs).mapM fun part => readInteger 10 (String.ofList part)
    return Integer.ofSixtieths parts

def integer (text : String) : Except Fault Int := do
  let (negative, cs) ← signed (withoutUnderscores text)
  let n ← natural cs
  return if negative then -n else n

/-- What a number means. -/
def ofDecimal : DecimalText → Meaning
  | .notANumber => .notANumber false
  | .number x => .value (.float x)

/-- The number that characters write, in base sixty if there are colons. -/
def decimal (cs : List Char) : Except Fault DecimalText :=
  if cs.contains ':' then do
    let parts ← (Tag.colonParts cs).mapM fun part => readDecimal (String.ofList part)
    match DecimalText.ofSixtieths? parts with
    | some x => return x
    | none => throw (.overflowError "int too large to convert to float")
  else readDecimal (String.ofList cs)

def float (text : String) : Except Fault Meaning := do
  let (negative, cs) ← signed (Text.lower (withoutUnderscores text))
  if cs == ".inf".toList then return .value (.float (.infinite negative))
  else if cs == ".nan".toList then return .notANumber true
  else
    let x ← decimal cs
    return ofDecimal (if negative then x.neg else x)

/-- The truth value of a word in whatever letters. -/
def truth (text : String) : Except Fault Bool :=
  let word := Text.lower text
  match Tag.truthWords.lookup word with
  | some b => .ok b
  | none => .error (.keyError (.text word))

/-- The date or the moment in a text, at whose end one line break counts for nothing. -/
def timestamp (text : String) : Except Fault Value :=
  let cs := text.toList
  match Timestamp.ofChars? (if cs.getLast? == some '\n' then cs.dropLast else cs) with
  | some t => t.value
  | none => .error (.noAttribute "NoneType" "groupdict")

/-- The bytes in a text. -/
def binary (text : String) : Option (List UInt8) :=
  if text.toList.all fun ch => ch.toNat < 0x80 then Text.Base64.decode? text.toList else none

/-- What a text means under a tag of scalars; the other tags give it no meaning. -/
def meaning (tag : Tag) (text : String) : Except Refusal Meaning :=
  let plain (v : Except Fault Value) : Except Refusal Meaning := Refusal.ofFault (v.map .value)
  match tag with
  | .null => plain (.ok .null)
  | .text => plain (.ok (.text text))
  | .bool => plain ((truth text).map .bool)
  | .int => plain ((integer text).map .int)
  | .float => Refusal.ofFault (float text)
  | .timestamp => plain (timestamp text)
  | .binary => (Refusal.ofOption (binary text)).map fun bs => .value (.bytes bs)
  | .sequence | .mapping | .members | .pairs | .merge | .value | .unknown => .error .malformed

end Scalar

end Assay.Yaml
