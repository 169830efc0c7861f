import Assay.Yaml.Text
import Assay.Yaml.Timestamp

/-! # Tags

A tag says what a node is meant to be. Where none is written, the form of a collection tells its
tag, and the text of a plain scalar tells whether it is a number, a date, a truth value or nothing
at all; whatever is none of these is text. A line break at the end of such a text counts for
nothing.
-/

namespace Assay.Yaml

inductive Tag where
  | null
  | bool
  | int
  | float
  | binary
  | timestamp
  | text
  | sequence
  | mapping
  /-- A mapping whose keys are all that counts. -/
  | members
  /-- A sequence of mappings with a single entry each. -/
  | pairs
  /-- As a key: its value is a mapping to be merged. -/
  | merge
  /-- As a key: its value stands for the whole mapping where a scalar is wanted. -/
  | value
  /-- A tag without a meaning. -/
  | unknown
  deriving DecidableEq, Repr, Inhabited

namespace Tag

/-- What comes before the names of the standard tags. -/
def standard : String := "tag:yaml.org,2002:"

/-- The standard tags with a meaning, by name. -/
def names : List (String × Tag) :=
  [("null", .null), ("bool", .bool), ("int", .int), ("float", .float), ("binary", .binary),
    ("timestamp", .timestamp), ("str", .text), ("seq", .sequence), ("map", .mapping),
    ("set", .members), ("omap", .pairs), ("pairs", .pairs), ("merge", .merge), ("value", .value)]

/-- The tag that is written in full. -/
def ofUri (uri : String) : Tag :=
  match names.find? fun (name, _) => standard ++ name == uri with
  | some (_, tag) => tag
  | none => .unknown

/-! ## Truth values -/

/-- Truth values in words, in small letters. -/
def truthWords : List (String × Bool) :=
  [("yes", true), ("no", false), ("true", true), ("false", false), ("on", true), ("off", false)]

/-- Whether a text is such a word in small letters, in capitals or with one capital in front. -/
def isTruth (text : String) : Bool :=
  truthWords.any fun (word, _) => [word, word.capitalize, word.toUpper].contains text

/-! ## Numbers -/

/-- Whether a character can stand among the digits of a base. -/
def isDigitIn (base : Nat) (ch : Char) : Bool := ch == '_' || (hexDigit? ch).any (· < base)

/-- Whether there are digits of a base and nothing else. -/
def areDigitsIn (base : Nat) (cs : List Char) : Bool := !cs.isEmpty && cs.all (isDigitIn base)

/-- Whether there are decimal digits of which the first is no underscore. -/
def isDecimal (cs : List Char) : Bool := cs.head?.any Char.isDigit && cs.all (isDigitIn 10)

/-- Whether digits count less than sixty. -/
def isSixtieth : List Char → Bool
  | [a] => a.isDigit
  | [a, b] => a.isDigit && a ≤ '5' && b.isDigit
  | _ => false

/-- Parts of a text between colons. -/
def colonParts (cs : List Char) : List (List Char) :=
  ((String.ofList cs).splitOn ":").map String.toList

/-- What follows a sign, or all if there is none. -/
def unsigned (cs : List Char) : List Char := (Integer.sign cs).2

/-- Whether a text is an integer: binary, octal, hexadecimal, decimal or in base sixty. -/
def isInteger (cs : List Char) : Bool :=
  match unsigned cs with
  | ['0'] => true
  | '0' :: 'b' :: digits => areDigitsIn 2 digits
  | '0' :: 'x' :: digits => areDigitsIn 16 digits
  | '0' :: digits => areDigitsIn 8 digits
  | cs =>
    match colonParts cs with
    | [] => false
    | whole :: parts => isDecimal whole && parts.all isSixtieth

/-- Whether there is an exponent, which has a sign, or nothing. -/
def isExponent : List Char → Bool
  | [] => true
  | e :: sign :: digits =>
    (e == 'e' || e == 'E') && (sign == '+' || sign == '-') && !digits.isEmpty &&
      digits.all Char.isDigit
  | _ => false

/-- Whether a text is a number with a point. Digits stand before the point, or after it if there
is no sign; what stands before it may be in base sixty, and then no exponent follows. -/
def isPointed (cs : List Char) : Bool :=
  match (unsigned cs).span (· != '.') with
  | (_, []) => false
  | ([], _ :: rest) =>
    cs.head? == some '.' && rest.head?.any Char.isDigit &&
      isExponent (rest.dropWhile (isDigitIn 10))
  | (whole, _ :: rest) =>
    let rest := rest.dropWhile (isDigitIn 10)
    match colonParts whole with
    | [] => false
    | first :: parts =>
      isDecimal first && parts.all isSixtieth &&
        (if parts.isEmpty then isExponent rest else rest.isEmpty)

/-- Whether a text is a number with a point, an infinity or what is not a number. -/
def isFloat (cs : List Char) : Bool :=
  [".inf", ".Inf", ".INF"].contains (String.ofList (unsigned cs)) ||
    [".nan", ".NaN", ".NAN"].contains (String.ofList cs) || isPointed cs

/-! ## Tags that are not written -/

/-- Whether a text is a date with a time of day, or a date with two digits each for the month and
for the day. -/
def isTimestamp (cs : List Char) : Bool :=
  match Timestamp.ofChars? cs with
  | none => false
  | some t => t.time.isSome || cs.length == 10

/-- The tag of a text of one line. -/
def ofLine (cs : List Char) : Tag :=
  let text := String.ofList cs
  if isTruth text then .bool
  else if isFloat cs then .float
  else if isInteger cs then .int
  else if text == "<<" then .merge
  else if ["", "~", "null", "Null", "NULL"].contains text then .null
  else if isTimestamp cs then .timestamp
  else if text == "=" then .value
  else if ["!", "&", "*"].contains text then .unknown
  else .text

/-- The tag of a scalar by its text. -/
def ofText (text : String) : Tag :=
  let cs := text.toList
  if cs == ['\n'] then .text
  else ofLine (if cs.getLast? == some '\n' then cs.dropLast else cs)

end Tag

end Assay.Yaml
