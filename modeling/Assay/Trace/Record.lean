import Assay.Heap.Memory
import Assay.Status

/-! # Trace records

Every call on a clause leaves a record. A record keeps what the call itself found and what the
chain made of it; its links say where it stands in a trace.
-/

namespace Assay

/-- The record of one call. -/
structure Record where
  operation : Operation
  role : Role
  /-- What stood to the left of a logic operation when it was recorded. -/
  left : Option Status := none
  /-- What the operation itself found. -/
  right : Status := .notImplemented
  /-- What the chain made of it. -/
  status : Status := .notImplemented
  /-- A `not` applies to the record, so it is shown the other way round. -/
  invert : Bool := false
  /-- The data produced or consumed, where snapshots are taken. -/
  captured : Option Snapshot := none
  /-- Class and text of the exception, for records of one. -/
  errorText : Option String := none
  index : Option Nat := none
  previous : Option Nat := none
  next : Option Nat := none
  deriving Inhabited

namespace Record

/-- The record of an operation that sets the subject. -/
def setter (o : Operation) : Record :=
  { operation := o, role := .setter, right := .set, status := .set }

/-- The record of a matcher whose verdict is still to come. -/
def matcher (o : Operation) : Record :=
  { operation := o, role := .matcher }

/-- The record of an operator, or of either end of a group. -/
def logic (o : Operation) (left : Option Status) : Record :=
  { operation := o, role := .logic, left }

/-- The record of a call during which an exception was raised. -/
def exception (o : Operation) (role : Role) (text : String) : Record :=
  { operation := o, role, right := .exception, status := .exception, errorText := some text }

def isResolved (r : Record) : Bool := r.status.isResolved

/-- What a report shows. The status of a record is that of the whole chain up to it; shown is
whether the operation itself was good for it, so that a verdict under a `not` is turned round. -/
def displayed (r : Record) : Status :=
  if r.right = .exception then .exception
  else if r.status = .set then .set
  else if r.status = .pass then .pass
  else if r.invert && r.right == .fail then .pass
  else if r.invert && r.right == .pass then .fail
  else r.status

/-- Turns the displayed verdict round. -/
def flip (r : Record) : Record := { r with invert := !r.invert }

/-- The record on one line. -/
def line (r : Record) : String :=
  let shown := s!"{r.operation.name}: {r.displayed.name}"
  match r.errorText with
  | none | some "" => shown
  | some text => s!"{shown} ({text})"

/-- An optional number for a line of details. -/
def numberText (n : Option Nat) : String := (n.map toString).getD "None"

/-- Everything about the record but its data, on one line. -/
def details (r : Record) : String :=
  let left := (r.left.map Status.name).getD "-"
  let invert := if r.invert then 1 else 0
  s!"{numberText r.index} {r.operation.name} {r.role.name} left={left} right={r.right.name} " ++
    s!"status={r.status.name} show={r.displayed.name} invert={invert} " ++
    s!"prev={numberText r.previous} next={numberText r.next}"

end Record

/-- What a report shows of a record. -/
structure RecordReport where
  record : Record
  displayed : Status
  /-- The captured data with its identities numbered. -/
  captured : Option Tree

namespace Record

def report (m : Memory) (r : Record) : Except Fault RecordReport :=
  match r.captured with
  | none => .ok { record := r, displayed := r.displayed, captured := none }
  | some s => ((m.numbered s).report m.heap).map fun tree =>
      { record := r, displayed := r.displayed, captured := some tree }

end Record

end Assay
