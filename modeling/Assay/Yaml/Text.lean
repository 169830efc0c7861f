import Assay.Yaml.Cursor
import Assay.Yaml.Refusal

/-! # The text of scalars

Scalars are written plainly, in quotes, or as blocks. Where one runs over several lines, a
single line break reads as a space and of more the first is dropped.
-/

namespace Assay.Yaml

/-- What line breaks between two words read as. -/
def fold (first : Char) (more : List Char) : List Char :=
  if first != '\n' then first :: more else if more.isEmpty then [' '] else more

/-! ## Plain scalars -/

/-- How many characters of a plain scalar stand at the beginning. -/
def plainLength (inFlow : Bool) : List Char → Nat
  | [] => 0
  | ch :: rest =>
    let next := rest.headD endMark
    let ends := isGap ch || (ch == ':' && (isGap next || inFlow && ",[]\x7b\x7d".contains next)) ||
      (inFlow && ",?[]\x7b\x7d".contains ch)
    if ends then 0 else plainLength inFlow rest + 1

/-- Empty lines after a line of a plain scalar; nothing if a document marker comes first. -/
def plainBreaks : Nat → Cursor → Option (List Char) × Cursor
  | 0, c => (some [], c)
  | limit + 1, c =>
    if c.peek 0 == ' ' then plainBreaks limit c.advance
    else match c.lineBreak? with
      | none => (some [], c)
      | some (ch, c) =>
        if c.atDocumentMarker then (none, c)
        else
          let (more, c) := plainBreaks limit c
          (more.map (ch :: ·), c)

/-- What lies between two words of a plain scalar, and whether a line ends there. -/
def plainSpaces (c : Cursor) : Option (List Char) × Bool × Cursor :=
  let (blanks, c) := c.span (· == ' ')
  match c.lineBreak? with
  | none => (some blanks, false, c)
  | some (first, c) =>
    if c.atDocumentMarker then (none, true, c)
    else
      let (more, c) := plainBreaks c.rest.length c
      (more.map (fold first), true, c)

/-- Reads the words of a plain scalar that stand no further left than the margin, and tells
whether a line ends after the last. -/
def plainText (inFlow : Bool) (margin : Nat) : Nat → List Char → Bool → Cursor →
    List Char × Bool × Cursor
  | 0, _, broken, c => ([], broken, c)
  | limit + 1, spaces, broken, c =>
    let length := if c.peek 0 == '#' then 0 else plainLength inFlow c.rest
    if length == 0 then ([], broken, c)
    else
      let word := spaces ++ c.rest.take length
      match plainSpaces (c.forward length) with
      | (none, broken, c) | (some [], broken, c) => (word, broken, c)
      | (some spaces, broken, c) =>
        if c.peek 0 == '#' || (!inFlow && c.column < margin) then (word, broken, c)
        else
          let (more, broken, c) := plainText inFlow margin limit spaces broken c
          (word ++ more, broken, c)

/-! ## Quoted scalars -/

/-- Empty lines inside quotes, which no document marker can follow. -/
def quotedBreaks : Nat → Cursor → Option (List Char × Cursor)
  | 0, _ => none
  | limit + 1, c =>
    if c.atDocumentMarker then none
    else
      let c := c.skip fun ch => ch == ' ' || ch == '\t'
      match c.lineBreak? with
      | none => some ([], c)
      | some (ch, c) => (quotedBreaks limit c).map fun (more, c) => (ch :: more, c)

/-- Escapes of one character. -/
def simpleEscapes : List (Char × Char) :=
  [('0', '\x00'), ('a', '\x07'), ('b', '\x08'), ('t', '\t'), ('\t', '\t'), ('n', '\n'),
    ('v', '\x0b'), ('f', '\x0c'), ('r', '\r'), ('e', '\x1b'), (' ', ' '), ('"', '"'),
    ('\\', '\\'), ('/', '/'), ('N', '\x85'), ('_', '\xa0'), ('L', '\u2028'), ('P', '\u2029')]

/-- How many digits an escape by number has. -/
def escapeDigits? : Char → Option Nat
  | 'x' => some 2
  | 'u' => some 4
  | 'U' => some 8
  | _ => none

/-- The number of a hexadecimal digit. -/
def hexDigit? (ch : Char) : Option Nat := if ch.toNat < 0x80 then Text.digit? ch else none

/-- The number that hexadecimal digits write. -/
def hexNumber? (digits : List Char) : Option Nat :=
  digits.foldlM (fun n ch => (hexDigit? ch).map fun d => 16 * n + d) 0

/-- The character of a number. -/
def characterOf (n : Nat) : Except Fault Char :=
  if n < 0x110000 then .ok (Text.ofCodePoint n)
  else if n < 0x80000000 then .error (.valueError "chr() arg not in range(0x110000)")
  else .error (.overflowError "Python int too large to convert to C int")

/-- Reads an escape after its backslash; a line break may be escaped too. -/
def escape (c : Cursor) : Except Refusal (List Char × Cursor) :=
  match simpleEscapes.lookup (c.peek 0), escapeDigits? (c.peek 0) with
  | some ch, _ => .ok ([ch], c.advance)
  | none, some count => do
    let digits := c.advance.rest.take count
    if digits.length != count then throw .malformed
    let n ← Refusal.ofOption (hexNumber? digits)
    let ch ← Refusal.ofFault (characterOf n)
    return ([ch], c.forward (count + 1))
  | none, none =>
    Refusal.ofOption (c.lineBreak?.bind fun (_, c) => quotedBreaks (c.rest.length + 1) c)

/-- Reads a scalar up to its closing quote. -/
def quotedText (quote : Char) : Nat → Cursor → Except Refusal (List Char × Cursor)
  | 0, _ => .error .malformed
  | limit + 1, c =>
    let ch := c.peek 0
    let next (read : Except Refusal (List Char × Cursor)) :
        Except Refusal (List Char × Cursor) := do
      let (text, c) ← read
      let (more, c) ← quotedText quote limit c
      return (text ++ more, c)
    if ch == quote then
      if quote == '\'' && c.peek 1 == '\'' then next (.ok (['\''], c.forward 2))
      else .ok ([], c.advance)
    else if ch == '\\' && quote == '"' then next (escape c.advance)
    else if isGap ch then
      let (blanks, c) := c.span fun ch => ch == ' ' || ch == '\t'
      if c.atEnd then .error .malformed
      else match c.lineBreak? with
        | none => next (.ok (blanks, c))
        | some (first, c) =>
          next (Refusal.ofOption ((quotedBreaks (c.rest.length + 1) c).map fun (more, c) =>
            (fold first more, c)))
    else next (.ok ([ch], c.advance))

/-! ## Block scalars -/

/-- What becomes of the line breaks at the end of a block scalar. -/
inductive Chomping where
  | strip
  | clip
  | keep
  deriving DecidableEq, Repr

/-- Reads how a block scalar is indented and chomped. -/
def blockIndicators (c : Cursor) : Option (Chomping × Option Nat × Cursor) :=
  let chomping? (ch : Char) : Option Chomping :=
    if ch == '+' then some .keep else if ch == '-' then some .strip else none
  let digit? (ch : Char) : Option Nat :=
    if ch.isDigit then some (ch.toNat - '0'.toNat) else none
  let (chomping, increment, c) :=
    match chomping? (c.peek 0), digit? (c.peek 0) with
    | some chomping, _ =>
      match digit? (c.peek 1) with
      | some n => (chomping, some n, c.forward 2)
      | none => (chomping, none, c.advance)
    | none, some n =>
      match chomping? (c.peek 1) with
      | some chomping => (chomping, some n, c.forward 2)
      | none => (.clip, some n, c.advance)
    | none, none => (.clip, none, c)
  if increment == some 0 || !(c.peek 0 == ' ' || isLineEnd (c.peek 0)) then none
  else some (chomping, increment, c)

/-- Goes past the rest of a line that may hold a comment only. -/
def ignoredLine (c : Cursor) : Option Cursor :=
  let c := c.skip (· == ' ')
  let c := if c.peek 0 == '#' then c.skip fun ch => !isLineEnd ch else c
  if !isLineEnd (c.peek 0) then none
  else match c.lineBreak? with
    | some (_, c) => some c
    | none => some c

/-- Empty lines before the first line of a block scalar, and the widest indentation in them. -/
def blockIndentation : Nat → Nat → Cursor → List Char × Nat × Cursor
  | 0, widest, c => ([], widest, c)
  | limit + 1, widest, c =>
    if c.peek 0 == ' ' then
      let c := c.advance
      blockIndentation limit (max widest c.column) c
    else match c.lineBreak? with
      | none => ([], widest, c)
      | some (ch, c) =>
        let (more, widest, c) := blockIndentation limit widest c
        (ch :: more, widest, c)

/-- Goes past spaces up to a column. -/
def indentTo (column : Nat) : Nat → Cursor → Cursor
  | 0, c => c
  | limit + 1, c =>
    if c.column < column && c.peek 0 == ' ' then indentTo column limit c.advance else c

/-- Empty lines inside a block scalar. -/
def blockBreaks (indent : Nat) : Nat → Cursor → List Char × Cursor
  | 0, c => ([], c)
  | limit + 1, c =>
    let c := indentTo indent c.rest.length c
    match c.lineBreak? with
    | none => ([], c)
    | some (ch, c) =>
      let (more, c) := blockBreaks indent limit c
      (ch :: more, c)

/-- Reads the lines of a block scalar after some empty ones. The line break and the empty lines
that end it are kept apart. -/
def blockLines (folded : Bool) (indent : Nat) : Nat → List Char → Cursor →
    List Char × List Char × List Char × Cursor
  | 0, breaks, c => ([], [], breaks, c)
  | limit + 1, breaks, c =>
    if c.column != indent || c.atEnd then ([], [], breaks, c)
    else
      let isBlank (ch : Char) : Bool := ch == ' ' || ch == '\t'
      let leading := !isBlank (c.peek 0)
      let (line, c) := c.span fun ch => !isLineEnd ch
      let (ending, c) := match c.lineBreak? with
        | some (ch, c) => ([ch], c)
        | none => ([], c)
      let (next, c) := blockBreaks indent (c.rest.length + 1) c
      if c.column != indent || c.atEnd then (breaks ++ line, ending, next, c)
      else
        let joint :=
          if folded && ending == ['\n'] && leading && !isBlank (c.peek 0) then
            (if next.isEmpty then [' '] else [])
          else ending
        let (more, ending, last, c) := blockLines folded indent limit next c
        (breaks ++ line ++ joint ++ more, ending, last, c)

/-- Reads a block scalar after its indicator. -/
def blockText (folded : Bool) (margin : Nat) (c : Cursor) : Option (List Char × Cursor) := do
  let (chomping, increment, c) ← blockIndicators c
  let c ← ignoredLine c
  let least := max margin 1
  let (breaks, indent, c) := match increment with
    | none =>
      let (breaks, widest, c) := blockIndentation c.rest.length 0 c
      (breaks, max least widest, c)
    | some n =>
      let indent := least + n - 1
      let (breaks, c) := blockBreaks indent (c.rest.length + 1) c
      (breaks, indent, c)
  let (text, ending, last, c) := blockLines folded indent (c.rest.length + 1) breaks c
  let tail := match chomping with
    | .strip => []
    | .clip => ending
    | .keep => ending ++ last
  return (text ++ tail, c)

end Assay.Yaml
