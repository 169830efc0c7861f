/-! # Statuses and logic operators

An outcome of a test is one of five statuses; four operators combine the status on
their left with the verdict on their right.
-/

namespace Assay

/-- Outcome of an operation, a test or a facet. -/
inductive Status where
  | pass
  | fail
  | exception
  | notImplemented
  /-- Only operations that set a subject have it. -/
  | set
  deriving DecidableEq, Repr, Inhabited

namespace Status

/-- Every status, in the order reports list them. -/
def all : List Status := [.pass, .fail, .exception, .notImplemented, .set]

/-- The word a report writes. -/
def name : Status → String
  | .pass => "pass"
  | .fail => "fail"
  | .exception => "exception"
  | .notImplemented => "not_implemented"
  | .set => "set"

/-- The status a word stands for. -/
def ofName? (word : String) : Option Status :=
  all.find? (·.name == word)

/-- A verdict as a status. -/
def ofMatch (matched : Bool) : Status :=
  if matched then .pass else .fail

/-- No longer waiting for an outcome. -/
def isResolved (s : Status) : Bool :=
  s != .notImplemented

end Status

/-- What combines a verdict with the status to its left. -/
inductive Operator where
  | not
  | and
  | or
  | xor
  deriving DecidableEq, Repr, Inhabited

namespace Operator

def name : Operator → String
  | .not => "not"
  | .and => "and"
  | .or => "or"
  | .xor => "xor"

/-- Only a `pass` counts as true on either side, except that `not` asks for a `fail`. -/
def combine (left : Option Status) (op : Operator) (right : Status) : Status :=
  let leftPass := left == some .pass
  let rightPass := right == .pass
  match op with
  | .and => .ofMatch (leftPass && rightPass)
  | .or => .ofMatch (leftPass || rightPass)
  | .xor => .ofMatch (leftPass != rightPass)
  | .not => .ofMatch (right == .fail)

end Operator

/-- The call a trace record describes. -/
inductive Operation where
  | that
  | pick
  | err
  | is
  | like
  | isType
  | logic (op : Operator)
  | blockStart
  | blockEnd
  deriving DecidableEq, Repr, Inhabited

namespace Operation

def all : List Operation :=
  [.that, .pick, .err, .is, .like, .isType, .logic .not, .logic .and, .logic .or, .logic .xor,
    .blockStart, .blockEnd]

def name : Operation → String
  | .that => "that"
  | .pick => "pick"
  | .err => "err"
  | .is => "is"
  | .like => "like"
  | .isType => "is_type"
  | .logic op => op.name
  | .blockStart => "block_start"
  | .blockEnd => "block_end"

/-- The name of the operation as a constant, which its own text shows. -/
def constant : Operation → String
  | .that => "THAT"
  | .pick => "PICK"
  | .err => "ERR"
  | .is => "IS"
  | .like => "LIKE"
  | .isType => "IS_TYPE"
  | .logic .not => "NOT"
  | .logic .and => "AND"
  | .logic .or => "OR"
  | .logic .xor => "XOR"
  | .blockStart => "BLOCK_START"
  | .blockEnd => "BLOCK_END"

def ofName? (word : String) : Option Operation :=
  all.find? (·.name == word)

/-- The operator a record waits with, if it is one. -/
def operator? : Operation → Option Operator
  | .logic op => some op
  | _ => none

def isOperator (o : Operation) : Bool :=
  o.operator?.isSome

end Operation

/-- Role an operation plays in a chain. -/
inductive Role where
  | setter
  | matcher
  | logic
  deriving DecidableEq, Repr, Inhabited

namespace Role

def all : List Role := [.setter, .matcher, .logic]

def name : Role → String
  | .setter => "setter"
  | .matcher => "matcher"
  | .logic => "logic"

def ofName? (word : String) : Option Role :=
  all.find? (·.name == word)

end Role

end Assay
