import Assay.Text.Half

/-! # A cursor over characters

The place of a reader in a text, with the line and the column it stands at.
-/

namespace Assay.Yaml

structure Cursor where
  rest : List Char
  index : Nat := 0
  line : Nat := 0
  column : Nat := 0
  deriving Repr

/-- What is read past the end; no text holds it. -/
def endMark : Char := '\x00'

/-- Ends a line. -/
def isBreak (ch : Char) : Bool :=
  ch == '\n' || ch == '\r' || ch == '\x85' || ch == '\u2028' || ch == '\u2029'

/-- Ends a line or the text. -/
def isLineEnd (ch : Char) : Bool := ch == endMark || isBreak ch

/-- Ends a word. -/
def isGap (ch : Char) : Bool := ch == ' ' || ch == '\t' || isLineEnd ch

/-- Characters of names. -/
def isNameChar (ch : Char) : Bool := ch.isAlphanum || ch == '-' || ch == '_'

/-- Whether a text can hold the character at all. -/
def isPrintable (ch : Char) : Bool :=
  let n := ch.toNat
  ch == '\t' || ch == '\n' || ch == '\r' || (0x20 ≤ n && n ≤ 0x7e) || n == 0x85 ||
    (0xa0 ≤ n && n ≤ 0xfffd) || (0x10000 ≤ n && (Text.half? ch).isNone)

namespace Cursor

def ofText (text : String) : Cursor := { rest := text.toList }

/-- The character a number of places ahead. -/
def peek (c : Cursor) (n : Nat) : Char := (c.rest.drop n).headD endMark

def atEnd (c : Cursor) : Bool := c.rest.isEmpty

/-- Goes past one character. -/
def advance (c : Cursor) : Cursor :=
  match c.rest with
  | [] => c
  | ch :: rest =>
    if isBreak ch && !(ch == '\r' && rest.head? == some '\n') then
      { rest, index := c.index + 1, line := c.line + 1 }
    else
      let column := if ch == '\uFEFF' then c.column else c.column + 1
      { c with rest, index := c.index + 1, column }

def forward (c : Cursor) : Nat → Cursor
  | 0 => c
  | n + 1 => c.advance.forward n

/-- Takes characters as long as they pass a test. -/
def span (c : Cursor) (p : Char → Bool) : List Char × Cursor :=
  let taken := c.rest.takeWhile p
  (taken, c.forward taken.length)

/-- Goes past characters as long as they pass a test. -/
def skip (c : Cursor) (p : Char → Bool) : Cursor := (c.span p).2

/-- Goes past the end of a line, which reads as a line feed in most spellings. -/
def lineBreak? (c : Cursor) : Option (Char × Cursor) :=
  let ch := c.peek 0
  if !isBreak ch then none
  else if ch == '\u2028' || ch == '\u2029' then some (ch, c.advance)
  else if ch == '\r' && c.peek 1 == '\n' then some ('\n', c.forward 2)
  else some ('\n', c.advance)

/-- Whether a marker of three equal characters stands here by itself. -/
def atMarker (c : Cursor) (ch : Char) : Bool :=
  c.peek 0 == ch && c.peek 1 == ch && c.peek 2 == ch && isGap (c.peek 3)

/-- Whether a document begins or ends here. -/
def atDocumentMarker (c : Cursor) : Bool := c.atMarker '-' || c.atMarker '.'

end Cursor

end Assay.Yaml
