import Assay.Yaml.Name

/-! # Tokens

A text is cut into tokens. Blocks are marked by indentation alone, so their beginnings and ends
become tokens of their own; and since a key is known as one only by the colon after it, what
stands where a key may stand is remembered, and marked as a key when the colon comes.
-/

namespace Assay.Yaml

inductive Token where
  | directive (d : Directive)
  | documentStart
  | documentEnd
  | blockSequenceStart
  | blockMappingStart
  | blockEnd
  | flowSequenceStart
  | flowSequenceEnd
  | flowMappingStart
  | flowMappingEnd
  | blockEntry
  | flowEntry
  | key
  | value
  | reference (name : String)
  | anchor (name : String)
  | tag (t : WrittenTag)
  | scalar (plain : Bool) (text : String)
  deriving DecidableEq, Repr

/-! ## Cutting a text -/

/-- The beginning of what may turn out to be a key. -/
structure PossibleKey where
  /-- How many tokens come before it. -/
  token : Nat
  /-- Whether only a key can stand there. -/
  required : Bool
  start : Cursor

/-- How far a text has been cut into tokens. -/
structure Lexer where
  cursor : Cursor
  tokens : List Token := []
  /-- The columns of the open blocks, the innermost first. -/
  indents : List Nat := []
  /-- Whether a key may begin here. -/
  allowKey : Bool := true
  possible : Option PossibleKey := none
  /-- What may be keys in the collections around the flow collection at hand. -/
  outer : List (Option PossibleKey) := []

namespace Lexer

/-- Whether the place is inside of brackets. -/
def inFlow (s : Lexer) : Bool := !s.outer.isEmpty

def emit (s : Lexer) (t : Token) : Lexer := { s with tokens := s.tokens ++ [t] }

/-- Adds what was read at the cursor. -/
def emitAt (s : Lexer) (t : Token) (c : Cursor) : Lexer :=
  { s with tokens := s.tokens ++ [t], cursor := c }

/-- Gives up a possible key, unless only a key can stand there. -/
def dropKey (s : Lexer) : Except Refusal Lexer :=
  match s.possible with
  | none => .ok s
  | some k => if k.required then .error .malformed else .ok { s with possible := none }

/-- Remembers that a key may begin here. -/
def saveKey (s : Lexer) : Except Refusal Lexer :=
  if !s.allowKey then .ok s
  else do
    let required := !s.inFlow && s.indents.head? == some s.cursor.column
    let s ← s.dropKey
    return { s with possible := some { token := s.tokens.length, required, start := s.cursor } }

/-- Whether a possible key lies too far back: a key stands on one line and is not long. -/
def PossibleKey.isStale (c : Cursor) (k : PossibleKey) : Bool :=
  k.start.line != c.line || 1024 < c.index - k.start.index

/-- Gives up all possible keys that lie too far back. -/
def dropStale (s : Lexer) : Except Refusal Lexer :=
  let isStale (k : PossibleKey) : Bool := PossibleKey.isStale s.cursor k
  let keep (k : Option PossibleKey) : Option PossibleKey := k.filter fun k => !isStale k
  if (s.possible :: s.outer).any fun k => k.any fun k => k.required && isStale k then
    .error .malformed
  else .ok { s with possible := keep s.possible, outer := s.outer.map keep }

/-- Closes the blocks whose column passes a test. -/
def closeBlocks (s : Lexer) (closed : Nat → Bool) : Lexer :=
  if s.inFlow then s
  else
    let count := (s.indents.takeWhile closed).length
    { s with
      indents := s.indents.drop count
      tokens := s.tokens ++ List.replicate count .blockEnd }

def closeAll (s : Lexer) : Lexer := s.closeBlocks fun _ => true

/-- Opens a block at a column if that is further right than the last one; its first token
goes to a place among the tokens. -/
def openBlock (s : Lexer) (column place : Nat) (t : Token) : Lexer :=
  if s.inFlow || s.indents.any (column ≤ ·) then s
  else { s with indents := column :: s.indents, tokens := s.tokens.insertIdx place t }

/-- Goes past blanks, comments and empty lines. After a line break a key may begin. -/
def skipBlanks : Nat → Lexer → Lexer
  | 0, s => s
  | limit + 1, s =>
    let c := s.cursor.skip (· == ' ')
    let c := if c.peek 0 == '#' then c.skip fun ch => !isLineEnd ch else c
    match c.lineBreak? with
    | none => { s with cursor := c }
    | some (_, c) => skipBlanks limit { s with cursor := c, allowKey := s.allowKey || !s.inFlow }

/-- Goes to the next token. -/
def approach (s : Lexer) : Except Refusal Lexer := do
  let c := s.cursor
  let s := if c.index == 0 && c.peek 0 == '\uFEFF' then { s with cursor := c.advance } else s
  let s ← (skipBlanks (s.cursor.rest.length + 1) s).dropStale
  return s.closeBlocks (s.cursor.column < ·)

/-- What ends all blocks: directives and the marks between documents. -/
def documentToken (s : Lexer) (t : Token) (c : Cursor) : Except Refusal Lexer := do
  let s ← s.closeAll.dropKey
  return { s.emitAt t c with allowKey := false }

def openFlow (s : Lexer) (t : Token) : Except Refusal Lexer := do
  let s ← s.saveKey
  return { s.emitAt t s.cursor.advance with
    possible := none, outer := s.possible :: s.outer, allowKey := true }

def closeFlow (s : Lexer) (t : Token) : Except Refusal Lexer := do
  let s ← s.dropKey
  match s.outer with
  | [] => throw .malformed
  | possible :: outer =>
    return { s.emitAt t s.cursor.advance with possible, outer, allowKey := false }

def flowEntry (s : Lexer) : Except Refusal Lexer := do
  let s ← s.dropKey
  return { s.emitAt .flowEntry s.cursor.advance with allowKey := true }

/-- Opens a block at the cursor, where its entries must be allowed. -/
def openHere (s : Lexer) (t : Token) : Except Refusal Lexer :=
  if s.inFlow then .ok s
  else if s.allowKey then .ok (s.openBlock s.cursor.column s.tokens.length t)
  else .error .malformed

def blockEntry (s : Lexer) : Except Refusal Lexer := do
  let s ← (← s.openHere .blockSequenceStart).dropKey
  return { s.emitAt .blockEntry s.cursor.advance with allowKey := true }

def explicitKey (s : Lexer) : Except Refusal Lexer := do
  let s ← (← s.openHere .blockMappingStart).dropKey
  return { s.emitAt .key s.cursor.advance with allowKey := !s.inFlow }

/-- Marks the possible key as a key, if there is one; without one the key is empty. -/
def valueMark (s : Lexer) : Except Refusal Lexer :=
  match s.possible with
  | some k =>
    let s := { s with
      tokens := s.tokens.insertIdx k.token .key, possible := none, allowKey := false }
    let s := s.openBlock k.start.column k.token .blockMappingStart
    .ok (s.emitAt .value s.cursor.advance)
  | none => do
    let s ← s.openHere .blockMappingStart
    return { s.emitAt .value s.cursor.advance with allowKey := !s.inFlow }

/-- Adds what can begin a key. -/
def nodePart (s : Lexer) (read : Except Refusal (Token × Cursor)) : Except Refusal Lexer := do
  let s ← s.saveKey
  let (t, c) ← read
  return { s.emitAt t c with allowKey := false }

/-- Adds a name of a node. -/
def namePart (s : Lexer) (token : String → Token) : Except Refusal Lexer :=
  s.nodePart (Refusal.ofOption ((anchorAt s.cursor.advance).map fun (name, c) => (token name, c)))

/-- The column from which the lines of a scalar may begin. -/
def margin (s : Lexer) : Nat :=
  match s.indents with
  | [] => 0
  | n :: _ => n + 1

def plainScalar (s : Lexer) : Except Refusal Lexer := do
  let s ← s.saveKey
  let (text, broken, c) := plainText s.inFlow s.margin s.cursor.rest.length [] false s.cursor
  return { s.emitAt (.scalar true (String.ofList text)) c with allowKey := broken }

def quotedScalar (s : Lexer) (quote : Char) : Except Refusal Lexer :=
  let c := s.cursor.advance
  s.nodePart ((quotedText quote (c.rest.length + 1) c).map fun (text, c) =>
    (.scalar false (String.ofList text), c))

def blockScalar (s : Lexer) (folded : Bool) : Except Refusal Lexer := do
  let s ← s.dropKey
  let (text, c) ← Refusal.ofOption <| blockText folded s.margin s.cursor.advance
  return { s.emitAt (.scalar false (String.ofList text)) c with allowKey := true }

/-- Whether a plain scalar can begin here. -/
def atPlain (s : Lexer) : Bool :=
  let ch := s.cursor.peek 0
  let special := isGap ch || "-?:,[]\x7b\x7d#&*!|>'\"%@`".contains ch
  !special ||
    (!isGap (s.cursor.peek 1) && (ch == '-' || (!s.inFlow && (ch == '?' || ch == ':'))))

/-- Reads the token at the cursor. -/
def next (s : Lexer) : Except Refusal Lexer :=
  let c := s.cursor
  let lineStart := c.column == 0
  let apart := isGap (c.peek 1)
  match c.peek 0, s.inFlow with
  | '[', _ => s.openFlow .flowSequenceStart
  | '{', _ => s.openFlow .flowMappingStart
  | ']', _ => s.closeFlow .flowSequenceEnd
  | '}', _ => s.closeFlow .flowMappingEnd
  | ',', _ => s.flowEntry
  | '*', _ => s.namePart .reference
  | '&', _ => s.namePart .anchor
  | '!', _ => s.nodePart (Refusal.ofOption ((tagAt c).map fun (t, c) => (.tag t, c)))
  | '\'', _ => s.quotedScalar '\''
  | '"', _ => s.quotedScalar '"'
  | '|', false => s.blockScalar false
  | '>', false => s.blockScalar true
  | ch, inFlow =>
    if ch == '%' && lineStart then do
      let (d, c) ← directiveAt c.advance
      s.documentToken (.directive d) c
    else if lineStart && c.atMarker '-' then s.documentToken .documentStart (c.forward 3)
    else if lineStart && c.atMarker '.' then s.documentToken .documentEnd (c.forward 3)
    else if ch == '-' && apart then s.blockEntry
    else if ch == '?' && (inFlow || apart) then s.explicitKey
    else if ch == ':' && (inFlow || apart) then s.valueMark
    else if s.atPlain then s.plainScalar
    else throw .malformed

end Lexer

/-- The tokens of a text, up to the place where it is refused if it is. -/
structure Cut where
  tokens : List Token
  refusal : Option Refusal := none
  deriving Repr

namespace Lexer

/-- The tokens that are settled where a text is refused: those in front of all that may yet turn
out to be a key. -/
def refused (s : Lexer) (r : Refusal) : Cut :=
  match s.dropStale with
  | .error r => { tokens := [], refusal := some r }
  | .ok s =>
    let keys := (s.possible :: s.outer).filterMap fun k => k.map PossibleKey.token
    { tokens := s.tokens.take (keys.foldl min s.tokens.length), refusal := some r }

/-- Reads all tokens from here on. -/
def run : Nat → Lexer → Cut
  | 0, s => s.refused .malformed
  | limit + 1, s =>
    match s.approach with
    | .error r => s.refused r
    | .ok ready =>
      if ready.cursor.atEnd then
        match ready.closeAll.dropKey with
        | .error r => s.refused r
        | .ok done => { tokens := done.tokens }
      else match ready.next with
        | .error r => s.refused r
        | .ok after => run limit after

end Lexer

namespace Cut

/-- Cuts a text into tokens. -/
def ofText (text : String) : Cut :=
  if text.toList.all isPrintable then
    let cursor := Cursor.ofText text
    Lexer.run (cursor.rest.length + 1) { cursor }
  else { tokens := [], refusal := some .malformed }

end Cut

end Assay.Yaml
