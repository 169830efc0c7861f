import Assay.Trace.Record

/-! # Statuses and operations by name

A word that names nothing is refused, in the way in which every enumeration refuses it.
-/

namespace Assay

/-- The refusal of a word that is no member of an enumeration. -/
def Fault.notA (enumeration word : String) : Fault :=
  .valueError s!"{Text.quote word} is not a valid {enumeration}"

def Status.read (word : String) : Except Fault Status :=
  match Status.ofName? word with
  | some s => .ok s
  | none => .error (.notA "Status" word)

def Operation.read (word : String) : Except Fault Operation :=
  match Operation.ofName? word with
  | some o => .ok o
  | none => .error (.notA "OperationKind" word)

def Role.read (word : String) : Except Fault Role :=
  match Role.ofName? word with
  | some r => .ok r
  | none => .error (.notA "OperationGroup" word)

/-- Combines statuses by an operation, which must be an operator. -/
def Operation.combine (left : Option Status) (o : Operation) (right : Status) :
    Except Fault Status :=
  match o.operator? with
  | some op => .ok (op.combine left right)
  | none => .error (.valueError s!"Not a logic operator: {o.name}")

/-- Combines statuses that are given by their words. -/
def combineWords (left : Option String) (operation right : String) : Except Fault Status := do
  let left ← left.mapM Status.read
  let o ← Operation.read operation
  o.combine left (← Status.read right)

end Assay
