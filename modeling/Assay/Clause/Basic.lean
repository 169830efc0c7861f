import Assay.Options.Basic
import Assay.Trace.Result

/-! # Clauses

A clause evaluates a chain of calls from left to right. It has a subject, which matchers judge,
and an operator that waits for the next verdict. A `not` issued while another operator waits
defers that operator; the outcome of the `not` is then its verdict. What user code does is no
part of this module: here are the steps between its runs.
-/

namespace Assay

/-- What a matcher asks about the subject. -/
inductive Matcher where
  | is
  | like
  | isType
  deriving DecidableEq, Repr

/-- A call on a clause. -/
inductive Call where
  | that
  | pick
  | err
  | check (m : Matcher)
  | logic (op : Operator)
  deriving DecidableEq, Repr

/-- What the record of a matcher is about. -/
def Matcher.operation : Matcher → Operation
  | .is => .is
  | .like => .like
  | .isType => .isType

/-- What the record of a call is about. -/
def Call.operation : Call → Operation
  | .that => .that
  | .pick => .pick
  | .err => .err
  | .check m => m.operation
  | .logic op => .logic op

/-- A chain that is built in a way that means nothing. -/
inductive Misuse where
  | notCallable (o : Operation) (type : ClassName)
  | noSubject (o : Operation)
  | operatorAfter (op waiting : Operator)
  | unresolvedGroup (owner : Operator)
  deriving DecidableEq, Repr

def Misuse.message : Misuse → String
  | .notCallable o type => s!"'{o.name}' expects a callable, got {type}"
  | .noSubject o => s!"'{o.name}' needs a subject; start the chain with that() or err()"
  | .operatorAfter op waiting =>
    s!"'{op.name}' cannot follow '{waiting.name}' before a matcher resolves it"
  | .unresolvedGroup owner => s!"Group block for '{owner.name}' ended with an unresolved operator"

/-- The state of a chain. -/
structure Clause where
  options : Options := .default
  result : TestResult := {}
  /-- Missing until the first call that sets it. -/
  subject : Option Value := none
  /-- The subject to return to after the next verdict, while a `pick` waits to be undone. -/
  restore : Option Value := none
  /-- Index of what stands to the left of the next operator. -/
  active : Option Nat := none
  /-- Index of the operator that a `not` has deferred. -/
  deferred : Option Nat := none
  /-- How many groups are open. -/
  depth : Nat := 0
  deriving Inhabited

namespace Clause

/-- Whether snapshots are taken of what the calls work on. -/
def tracing (c : Clause) : Bool := c.options.tracingEnabled

/-- Adds a record to the trace. -/
def add (c : Clause) (r : Record) : Clause :=
  { c with result := c.result.add r }

/-- Changes the record at an index. -/
def modify (c : Clause) (i : Nat) (f : Record → Record) : Clause :=
  { c with result := c.result.modify i f }

/-- Says what the chain amounts to. -/
def setStatus (c : Clause) (s : Status) : Clause :=
  { c with result := { c.result with status := s } }

/-- The operator recorded at an index. -/
def operatorAt? (c : Clause) (i : Nat) : Option Operator :=
  c.result.trace[i]?.bind (·.operation.operator?)

/-- The status of the record to the left of the next operator. -/
def activeStatus? (c : Clause) : Option Status :=
  c.active.bind fun i => c.result.trace[i]?.map (·.status)

/-- The operator that waits for a verdict, and its index. -/
def waiting? (c : Clause) : Option (Nat × Operator) := do
  let i ← c.active
  let r ← c.result.trace[i]?
  if r.isResolved then none else r.operation.operator?.map (i, ·)

/-- Records an operator, which waits from now on. -/
def issue (c : Clause) (op : Operator) (left : Status) : Clause :=
  let i := c.result.trace.length
  { (c.setStatus .notImplemented).add (.logic (.logic op) (some left)) with active := some i }

/-- Issues an operator. Only a `not` can be issued while another operator waits, which it
defers; what was deferred before is dropped. -/
def addOperator (c : Clause) (op : Operator) : Except Misuse (Clause × List String) :=
  match op, c.waiting? with
  | .not, some (i, waiting) =>
    let dropped := (c.deferred.bind c.operatorAt?).map fun old =>
      s!"Deferred '{old.name}' replaced by '{waiting.name}'"
    .ok ({ c with deferred := some i }.issue .not (c.activeStatus?.getD .pass), dropped.toList)
  | .not, none => .ok (c.issue .not (c.activeStatus?.getD .pass), [])
  | op, some (_, waiting) => .error (.operatorAfter op waiting)
  | op, none => .ok (c.issue op (c.activeStatus?.getD c.result.status), [])

/-- Gives the operator at an index its verdict. -/
def settle (c : Clause) (i : Nat) (op : Operator) (verdict : Status) :
    Clause × Status × String :=
  let left := c.result.trace[i]?.bind (·.left)
  let status := op.combine left verdict
  let leftName := (left.map Status.name).getD "-"
  (c.modify i fun r => { r with right := verdict, status },
    status, s!"{op.name}({leftName}, {verdict.name}) -> {status.name}")

/-- Gives a deferred operator, if there is one, its verdict. -/
def settleDeferred (c : Clause) (verdict : Status) : Clause × Status × List String :=
  match c.deferred.bind fun i => (c.operatorAt? i).map (i, ·) with
  | none => (c, verdict, [])
  | some (i, op) =>
    let (c, status, note) := c.settle i op verdict
    ({ c with deferred := none }, status, [s!"deferred {note}"])

/-- The fail point after a verdict at the top of the chain: the first failure since the last
pass. -/
def failPointAfter (failPoint : Option Nat) (i : Nat) (status : Status) : Option Nat :=
  if status = .fail then some (failPoint.getD i)
  else if status = .pass then none
  else failPoint

/-- Makes a verdict that of the chain: the record at the index becomes the left side of the next
operator, and a `pick` is undone. -/
def conclude (c : Clause) (i : Nat) (status : Status) : Clause × List String :=
  let c := { (c.modify i fun r => { r with status }).setStatus status with active := some i }
  let c := if c.depth = 0 then
      { c with result := { c.result with failPoint := failPointAfter c.result.failPoint i status } }
    else c
  match c.restore with
  | none => (c, [])
  | some v => ({ c with subject := some v, restore := none }, ["Subject restored after pick"])

/-- Combines the verdict of the record at an index with the operators that wait. -/
def resolve (c : Clause) (i : Nat) (verdict : Status) : Clause × List String :=
  let c := c.modify i fun r => { r with right := verdict }
  match c.waiting? with
  | none => c.conclude i verdict
  | some (a, op) =>
    let (c, status, note) := c.settle a op verdict
    let (c, status, deferred) := c.settleDeferred status
    let c := if op = .not then c.modify i fun r => { r with invert := true } else c
    let (c, restored) := c.conclude i status
    (c, note :: deferred ++ restored)

/-- Sets the subject. A status that was still open counts as a pass from now on. -/
def setSubject (c : Clause) (o : Operation) (captured : Option Snapshot) (v : Value) : Clause :=
  let c := c.add { Record.setter o with captured }
  let c := if c.result.status = .notImplemented then c.setStatus .pass else c
  { c with subject := some v, restore := none }

/-- Records a matcher and its verdict. -/
def judge (c : Clause) (m : Matcher) (captured : Option Snapshot) (matched : Bool) :
    Clause × List String :=
  let i := c.result.trace.length
  (c.add { Record.matcher m.operation with captured }).resolve i (.ofMatch matched)

/-- Records an exception, which is what the chain amounts to from now on. -/
def abort (c : Clause) (o : Operation) (role : Role) (text : String)
    (captured : Option Snapshot) : Clause :=
  (c.add { Record.exception o role text with captured }).setStatus .exception

/-- Opens a group, a chain of its own over the same subject. -/
def openGroup (c : Clause) : Clause :=
  { (c.setStatus .pass).add (.logic .blockStart (some .pass)) with
    active := none, deferred := none, restore := none, depth := c.depth + 1 }

/-- Gives the chain around a group back what waited in it when the group was opened. -/
def resume (outer c : Clause) : Clause :=
  { c.setStatus outer.result.status with
    active := outer.active, deferred := outer.deferred, restore := outer.restore }

/-- Closes a group: its status is the verdict on the operator that owns it. -/
def closeGroup (outer c : Clause) : Clause × List String :=
  let i := c.result.trace.length
  ((resume outer c).add (.logic .blockEnd (some outer.result.status))).resolve i c.result.status

end Clause

end Assay
