import Assay.Yaml.Text

/-! # Names and directives

Anchors name nodes and tags name their types. A tag may be shortened to a handle and a rest;
directives say what the handles of a document stand for.
-/

namespace Assay.Yaml

/-- A tag as it is written. -/
structure WrittenTag where
  /-- Stands for the first part of the tag; missing where the tag is written in full. -/
  handle : Option String
  suffix : String
  deriving DecidableEq, Repr

inductive Directive where
  | version (major : Nat)
  | handle (name uri : String)
  | other
  deriving DecidableEq, Repr

/-! ## Names -/

/-- Reads a name of at least one character. -/
def nameAt (c : Cursor) : Option (String × Cursor) :=
  match c.span isNameChar with
  | ([], _) => none
  | (name, c) => some (String.ofList name, c)

/-- Reads the name of an anchor or of a reference after its mark. -/
def anchorAt (c : Cursor) : Option (String × Cursor) := do
  let (name, c) ← nameAt c
  if isGap (c.peek 0) || "?:,]\x7d%@`".contains (c.peek 0) then return (name, c) else none

/-- What tags consist of, apart from escaped bytes. -/
def isUriChar (ch : Char) : Bool := ch.isAlphanum || "-;/?:@&=+$,_.!~*'()[]".contains ch

/-- Reads bytes, each written as two hexadecimal digits after a percent sign. -/
def escapedBytes : Nat → Cursor → Option (List UInt8 × Cursor)
  | 0, c => some ([], c)
  | limit + 1, c =>
    if c.peek 0 != '%' then some ([], c)
    else do
      let high ← hexDigit? (c.peek 1)
      let low ← hexDigit? (c.peek 2)
      let (more, c) ← escapedBytes limit (c.forward 3)
      return (UInt8.ofNat (16 * high + low) :: more, c)

/-- Reads what a tag consists of. Escaped bytes in a row write characters as UTF-8. -/
def uriChars : Nat → Cursor → Option (List Char × Cursor)
  | 0, c => some ([], c)
  | limit + 1, c =>
    if c.peek 0 == '%' then do
      let (bytes, c) ← escapedBytes c.rest.length c
      let text ← String.fromUTF8? ⟨bytes.toArray⟩
      let (more, c) ← uriChars limit c
      return (text.toList ++ more, c)
    else if isUriChar (c.peek 0) then do
      let (more, c') ← uriChars limit c.advance
      return (c.peek 0 :: more, c')
    else some ([], c)

def uriAt (c : Cursor) : Option (String × Cursor) := do
  match ← uriChars c.rest.length c with
  | ([], _) => none
  | (uri, c) => return (String.ofList uri, c)

/-- Reads a handle: a name between two marks, or one mark with a space after it. -/
def handleAt (c : Cursor) : Option (String × Cursor) :=
  if c.peek 0 != '!' then none
  else if c.peek 1 == ' ' then some ("!", c.advance)
  else
    let (name, c) := c.advance.span isNameChar
    if c.peek 0 == '!' then some ("!" ++ String.ofList name ++ "!", c.advance) else none

/-- Reads a tag from its mark on. -/
def tagAt (c : Cursor) : Option (WrittenTag × Cursor) := do
  let (t, c) ←
    if c.peek 1 == '<' then do
      let (suffix, c) ← uriAt (c.forward 2)
      if c.peek 0 == '>' then some ({ handle := none, suffix : WrittenTag }, c.advance) else none
    else if isGap (c.peek 1) then some ({ handle := none, suffix := "!" }, c.advance)
    else do
      let word := c.advance.rest.takeWhile fun ch => !(ch == ' ' || isLineEnd ch)
      let (handle, c) ← if word.contains '!' then handleAt c else some ("!", c.advance)
      let (suffix, c) ← uriAt c
      some ({ handle := some handle, suffix }, c)
  if c.peek 0 == ' ' || isLineEnd (c.peek 0) then return (t, c) else none

/-! ## Directives -/

/-- Reads a number of a version. -/
def numberAt (c : Cursor) : Except Refusal (Nat × Cursor) := do
  match c.span Char.isDigit with
  | ([], _) => throw .malformed
  | (digits, c) =>
    let n ← Refusal.ofFault (readInteger 10 (String.ofList digits))
    return (n.toNat, c)

/-- Requires that a word ends here. -/
def wordEnd (c : Cursor) : Except Refusal Unit :=
  if c.peek 0 == ' ' || isLineEnd (c.peek 0) then .ok () else .error .malformed

/-- Goes past spaces. -/
def pastSpaces (c : Cursor) : Cursor := c.skip (· == ' ')

/-- Reads the numbers of a version. -/
def versionAt (c : Cursor) : Except Refusal (Directive × Cursor) := do
  let (major, c) ← numberAt c
  if c.peek 0 != '.' then throw .malformed
  let (_, c) ← numberAt c.advance
  wordEnd c
  return (.version major, c)

/-- Reads a handle and what it stands for. -/
def handleMeaningAt (c : Cursor) : Except Refusal (Directive × Cursor) := do
  let (handle, c) ← Refusal.ofOption (handleAt c)
  if c.peek 0 != ' ' then throw .malformed
  let (uri, c) ← Refusal.ofOption (uriAt (pastSpaces c))
  wordEnd c
  return (.handle handle uri, c)

/-- Reads a directive after its mark, together with the rest of its line. -/
def directiveAt (c : Cursor) : Except Refusal (Directive × Cursor) := do
  let (name, c) ← Refusal.ofOption (nameAt c)
  wordEnd c
  let (d, c) ←
    if name == "YAML" then versionAt (pastSpaces c)
    else if name == "TAG" then handleMeaningAt (pastSpaces c)
    else pure (.other, c.skip fun ch => !isLineEnd ch)
  return (d, ← Refusal.ofOption (ignoredLine c))

end Assay.Yaml
