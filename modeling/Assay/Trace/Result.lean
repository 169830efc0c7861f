import Assay.Snapshot.Diff
import Assay.Trace.Record

/-! # Test results

A test has a status, the trace of the calls on its clause, and the place of its first failure.
Records are linked to their neighbours by index.
-/

namespace Assay

/-- The result of one test. -/
structure TestResult where
  status : Status := .notImplemented
  trace : List Record := []
  /-- Index of the first failure since the last pass, groups counted as one. -/
  failPoint : Option Nat := none
  deriving Inhabited

namespace TestResult

/-- Adds a record to the end of the trace and links it to the one before. -/
def add (t : TestResult) (r : Record) : TestResult :=
  let n := t.trace.length
  let linked := t.trace.modify (n - 1) fun last => { last with next := some n }
  let r := { r with index := some n, previous := if n = 0 then r.previous else some (n - 1) }
  { t with trace := linked ++ [r] }

/-- Changes the record at an index. -/
def modify (t : TestResult) (i : Nat) (f : Record → Record) : TestResult :=
  { t with trace := t.trace.modify i f }

/-- The records met by following the links from an index, up to a number of steps. -/
def follow (records : List Record) : Nat → Option Nat → List Record
  | 0, _ | _, none => []
  | limit + 1, some i =>
    match records[i]? with
    | none => []
    | some r => r :: follow records limit r.next

/-- The trace along its links. -/
def walk (t : TestResult) (limit : Nat) : List Record :=
  follow t.trace limit (if t.trace.isEmpty then none else some 0)

/-- The record at the fail point, if there is a fail point; it must lie in the trace. -/
def failRecord (t : TestResult) : Except Fault (Option Record) :=
  match t.failPoint with
  | none => .ok none
  | some i =>
    match t.trace[i]? with
    | some r => .ok (some r)
    | none => .error (.indexError "list index out of range")

/-- The nearest record that set a subject before the given index. -/
def setterBefore (t : TestResult) (i : Nat) : Option Record :=
  (t.trace.take i).reverse.find? (·.role = .setter)

/-- The two snapshots that explain a failure: what the matcher at the fail point expected, and
the subject that was set last before it. There are none where snapshots were not taken. -/
def failurePair (t : TestResult) : Except Fault (Option (Snapshot × Snapshot)) :=
  t.failRecord.map fun failed => do
    let failed ← failed
    let expected ← failed.captured
    let subject ← t.setterBefore (failed.index.getD t.trace.length)
    return (expected, ← subject.captured)

/-- The difference between what was expected at the fail point and the subject. -/
def failureDiff (m : Memory) (t : TestResult) : Noted (Option Snapshot) :=
  match t.failurePair with
  | .error e => ([], .error e)
  | .ok none => ([], .ok none)
  | .ok (some (expected, actual)) =>
    Snapshot.diff m.heap (m.numbered expected) (some (m.numbered actual))

end TestResult

/-- What a report shows of a test. -/
structure TestReport where
  status : Status
  failPoint : Option Nat
  trace : List RecordReport

def TestResult.report (m : Memory) (t : TestResult) : Except Fault TestReport :=
  (t.trace.mapM (Record.report m)).map fun trace =>
    { status := t.status, failPoint := t.failPoint, trace }

end Assay
