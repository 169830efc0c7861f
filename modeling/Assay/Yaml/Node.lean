import Assay.Yaml.Tag
import Assay.Yaml.Token

/-! # Nodes

A document is a graph of nodes. A node can be reached on several ways, since anchors give names to
nodes and references lead back to a node named further up, even to one that they stand in. So
nodes are kept side by side, and a collection holds the indices of its members.
-/

namespace Assay.Yaml

/-- The place of a node among all nodes. -/
abbrev NodeIndex := Nat

inductive Node where
  | scalar (tag : Tag) (text : String)
  | sequence (tag : Tag) (items : List NodeIndex)
  | mapping (tag : Tag) (entries : List (NodeIndex × NodeIndex))
  deriving DecidableEq, Repr, Inhabited

/-- All nodes of a document; members of a collection come after it. -/
abbrev Nodes := Array Node

namespace Node

/-- What is not written at all. -/
def empty : Node := .scalar .null ""

def tag : Node → Tag
  | .scalar t _ | .sequence t _ | .mapping t _ => t

/-- The node under another tag. -/
def withTag (t : Tag) : Node → Node
  | .scalar _ text => .scalar t text
  | .sequence _ items => .sequence t items
  | .mapping _ entries => .mapping t entries

end Node

/-- The node at an index. -/
def Nodes.node (ns : Nodes) (i : NodeIndex) : Node := ns[i]?.getD .empty

/-- What is written in front of a node. -/
structure Properties where
  anchor : Option String := none
  /-- The full tag. -/
  tag : Option String := none
  deriving DecidableEq, Repr

namespace Properties

/-- The tag that is written, unless it is a mark that says nothing. -/
def givenTag? (p : Properties) : Option Tag :=
  match p.tag with
  | none | some "!" => none
  | some uri => some (.ofUri uri)

/-- The tag of a scalar. The mark alone makes any scalar mean what it would plainly. -/
def scalarTag (p : Properties) (plain : Bool) (text : String) : Tag :=
  p.givenTag?.getD (if plain || p.tag.isSome then .ofText text else .text)

end Properties

/-- What is left to read, what the names in it mean, and the nodes read so far. -/
structure Source where
  tokens : List Token
  /-- Why there are no more tokens, unless the text ends there. -/
  refusal : Option Refusal := none
  /-- What the handles of tags stand for. -/
  handles : List (String × String) := []
  /-- The nodes with a name. -/
  anchors : List (String × NodeIndex) := []
  nodes : Nodes := #[]

/-- A step of reading, which may find that the document is refused. -/
abbrev Reading := StateT Source (Except Refusal)

namespace Reading

def malformed {α : Type} : Reading α := fun _ => .error .malformed

/-- The next token, if the text does not end here. -/
def peek : Reading (Option Token) := do
  let s ← get
  match s.tokens, s.refusal with
  | t :: _, _ => return some t
  | [], none => return none
  | [], some r => throw r

/-- Whether the next token is one of these. -/
def isAt (ts : List Token) : Reading Bool := return (← peek).any ts.contains

/-- Goes past the next token. -/
def skip : Reading Unit := modify fun s => { s with tokens := s.tokens.tail }

/-- Goes past the next token if it is this one, and tells whether it was. -/
def accept (t : Token) : Reading Bool := do
  let found ← isAt [t]
  if found then skip
  return found

def expect (t : Token) : Reading Unit := do
  unless ← accept t do malformed

/-! ## Properties -/

/-- Reads an anchor, if there is one. -/
def anchor : Reading (Option String) := do
  match ← peek with
  | some (.anchor name) =>
    skip
    return some name
  | _ => return none

/-- Reads a tag as it is written, if there is one. -/
def writtenTag : Reading (Option WrittenTag) := do
  match ← peek with
  | some (.tag t) =>
    skip
    return some t
  | _ => return none

/-- The full tag: its handle must stand for something. -/
def fullTag (t : WrittenTag) : Reading String := do
  match t.handle with
  | none => return t.suffix
  | some handle =>
    match (← get).handles.lookup handle with
    | some start => return start ++ t.suffix
    | none => malformed

/-- Reads an anchor and a tag, which come in any order. -/
def properties : Reading Properties := do
  match ← anchor with
  | some name =>
    let t ← writtenTag
    return { anchor := some name, tag := ← t.mapM fullTag }
  | none =>
    match ← writtenTag with
    | none => return {}
    | some t =>
      let name ← anchor
      return { anchor := name, tag := some (← fullTag t) }

/-! ## Nodes -/

/-- Adds a node, and gives it its name; every name is given once. -/
def add (p : Properties) (n : Node) : Reading NodeIndex := do
  let s ← get
  let i := s.nodes.size
  let anchors ← match p.anchor with
    | none => pure s.anchors
    | some name =>
      if (s.anchors.lookup name).isSome then malformed else pure ((name, i) :: s.anchors)
  set { s with nodes := s.nodes.push n, anchors }
  return i

/-- Adds what is not written at all. -/
def addEmpty : Reading NodeIndex := add {} .empty

/-- Replaces a node. -/
def put (i : NodeIndex) (n : Node) : Reading Unit :=
  modify fun s => { s with nodes := s.nodes.setIfInBounds i n }

/-- Adds a collection before its members are read, so that they can refer to it. -/
def addSequence (p : Properties) (items : Reading (List NodeIndex)) : Reading NodeIndex := do
  let tag := p.givenTag?.getD .sequence
  let i ← add p (.sequence tag [])
  put i (.sequence tag (← items))
  return i

/-- Adds a mapping before its entries are read, so that they can refer to it. -/
def addMapping (p : Properties) (entries : Reading (List (NodeIndex × NodeIndex))) :
    Reading NodeIndex := do
  let tag := p.givenTag?.getD .mapping
  let i ← add p (.mapping tag [])
  put i (.mapping tag (← entries))
  return i

/-- The node of a name. -/
def referent (name : String) : Reading NodeIndex := do
  match (← get).anchors.lookup name with
  | some i => return i
  | none => malformed

/-- Reads a node, or finds an empty one before these tokens. -/
def unlessAt (ts : List Token) (node : Reading NodeIndex) : Reading NodeIndex := do
  if ← isAt ts then addEmpty else node

/-- Reads the value after a mark, or finds an empty one without the mark. -/
def valueUnlessAt (ts : List Token) (node : Reading NodeIndex) : Reading NodeIndex := do
  if ← accept .value then unlessAt ts node else addEmpty

/-- What ends an empty key or value of a block mapping. -/
def afterKey : List Token := [.key, .value, .blockEnd]

/-- Goes past what divides the parts of a flow collection, and tells whether it ends here.
The end may follow a divider. -/
def flowEnd (first : Bool) (t : Token) : Reading Bool := do
  if ← accept t then return true
  else if first then return false
  else do
    expect .flowEntry
    accept t

mutual
/-- Reads a node. Blocks may stand only where a block node may; entries without an indentation
of their own only where those may. -/
def node (block indentless : Bool) : Nat → Reading NodeIndex
  | 0 => malformed
  | limit + 1 => do
    match ← peek with
    | some (.reference name) =>
      skip
      referent name
    | _ =>
      let p ← properties
      match ← peek, block with
      | some (.scalar plain text), _ =>
        skip
        add p (.scalar (p.scalarTag plain text) text)
      | some .flowSequenceStart, _ =>
        skip
        addSequence p (flowItems true limit)
      | some .flowMappingStart, _ =>
        skip
        addMapping p (flowEntries true limit)
      | some .blockSequenceStart, true =>
        skip
        let i ← addSequence p (blockItems [.blockEntry, .blockEnd] limit)
        expect .blockEnd
        return i
      | some .blockMappingStart, true =>
        skip
        let i ← addMapping p (blockEntries limit)
        expect .blockEnd
        return i
      | next, _ =>
        if indentless && next == some .blockEntry then
          addSequence p (blockItems (.blockEntry :: afterKey) limit)
        else if p == {} then malformed
        else add p (.scalar (p.scalarTag true "") "")
/-- Reads items as long as entries begin; items are empty before certain tokens. -/
def blockItems (ends : List Token) : Nat → Reading (List NodeIndex)
  | 0 => malformed
  | limit + 1 => do
    if ← accept .blockEntry then
      let item ← unlessAt ends (node true false limit)
      return item :: (← blockItems ends limit)
    else return []
/-- Reads keys with their values as long as keys begin. -/
def blockEntries : Nat → Reading (List (NodeIndex × NodeIndex))
  | 0 => malformed
  | limit + 1 => do
    if ← accept .key then
      let key ← unlessAt afterKey (node true true limit)
      let value ← valueUnlessAt afterKey (node true true limit)
      return (key, value) :: (← blockEntries limit)
    else return []
/-- Reads the items of a flow sequence up to its end. One key with its value may be an item. -/
def flowItems (first : Bool) : Nat → Reading (List NodeIndex)
  | 0 => malformed
  | limit + 1 => do
    let t : Token := .flowSequenceEnd
    if ← flowEnd first t then return []
    else if ← accept .key then
      let item ← addMapping {} do
        let key ← unlessAt [.value, .flowEntry, t] (node false false limit)
        let value ← valueUnlessAt [.flowEntry, t] (node false false limit)
        return [(key, value)]
      return item :: (← flowItems false limit)
    else
      let item ← node false false limit
      return item :: (← flowItems false limit)
/-- Reads the entries of a flow mapping up to its end. A key may do without a value. -/
def flowEntries (first : Bool) : Nat → Reading (List (NodeIndex × NodeIndex))
  | 0 => malformed
  | limit + 1 => do
    let t : Token := .flowMappingEnd
    if ← flowEnd first t then return []
    else if ← accept .key then
      let key ← unlessAt [.value, .flowEntry, t] (node false false limit)
      let value ← valueUnlessAt [.flowEntry, t] (node false false limit)
      return (key, value) :: (← flowEntries false limit)
    else
      let key ← node false false limit
      let value ← addEmpty
      return (key, value) :: (← flowEntries false limit)
end

/-! ## Documents -/

/-- The handles that need no directive. -/
def standardHandles : List (String × String) := [("!", "!"), ("!!", Tag.standard)]

/-- Reads directives: at most one version, which must be known, and each handle once. -/
def directives (versioned : Bool) (handles : List (String × String)) :
    Nat → Reading (List (String × String))
  | 0 => malformed
  | limit + 1 => do
    match ← peek with
    | some (.directive d) =>
      skip
      match d with
      | .version major =>
        if versioned || major != 1 then malformed else directives true handles limit
      | .handle name uri =>
        if (handles.lookup name).isSome then malformed
        else directives versioned ((name, uri) :: handles) limit
      | .other => directives versioned handles limit
    | _ => return handles ++ standardHandles

/-- Reads the only document, if there is one. -/
def document (limit : Nat) : Reading (Option NodeIndex) := do
  let begin (handles : List (String × String)) : Reading Unit :=
    modify fun s => { s with handles }
  match ← peek with
  | none => return none
  | some (.directive _) | some .documentStart =>
    begin (← directives false [] limit)
    expect .documentStart
    match ← peek with
    | none | some .documentStart | some .documentEnd | some (.directive _) =>
      return some (← addEmpty)
    | some _ => return some (← node true false limit)
  | some _ =>
    begin standardHandles
    return some (← node true false limit)

/-- Requires that nothing follows a document but marks of its end. -/
def finish : Nat → Reading Unit
  | 0 => malformed
  | limit + 1 => do
    match ← peek with
    | none => return
    | some .documentEnd =>
      skip
      finish limit
    | some _ =>
      let _ ← directives false [] limit
      expect .documentStart
      malformed

end Reading

/-- Reads all nodes of a text, and which of them it stands for. A text without a document stands
for nothing; more than one document is too many. -/
def Nodes.ofText (text : String) : Except Refusal (Nodes × Option NodeIndex) := do
  let cut := Cut.ofText text
  -- a node and its members are two steps down, for one token at least
  let limit := 2 * cut.tokens.length + 2
  let read : Reading (Option NodeIndex) := do
    let root ← Reading.document limit
    Reading.finish limit
    return root
  let (root, s) ← read.run { tokens := cut.tokens, refusal := cut.refusal }
  return (s.nodes, root)

end Assay.Yaml
