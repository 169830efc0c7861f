import Assay.Entries
import Assay.Heap.Numeral
import Assay.Status
import Assay.Text.Quoted
import Assay.Trace.Result

/-! # Facets

A facet is a named group of tests that prove one behaviour. Tests have names; one without a
name is numbered. What a facet keeps of a test is left open here: while a facet runs it is the
number of a clause, and at the end it is a result.
-/

namespace Assay

/-- The name of a test. A truth value names the same test as the number it counts as. -/
inductive TestName where
  | text (s : String)
  | number (n : Int)
  | flag (b : Bool)
  deriving DecidableEq, Repr

namespace TestName

/-- The number a name is, unless it is a text. -/
def number? : TestName → Option Int
  | .text _ => none
  | .number n => some n
  | .flag b => some (if b then 1 else 0)

/-- Whether two names stand for the same test. -/
def same (a b : TestName) : Bool :=
  match a, b with
  | .text s, .text t => s == t
  | _, _ => a.number?.isSome && a.number? == b.number?

/-- A number can have too many digits to be written. -/
def isWritable : TestName → Bool
  | .number n => Integer.isWritable n
  | .text _ | .flag _ => true

/-- The name as a report writes it. -/
def display : TestName → String
  | .text s => s
  | .number n => toString n
  | .flag b => if b then "True" else "False"

/-- The name as messages write it: texts are quoted. -/
def quoted : TestName → String
  | .text s => Text.quote s
  | name => name.display

/-- A text in which the name is written. -/
def written (name : TestName) (text : String) : Except Fault String :=
  if name.isWritable then .ok text else .error (.tooManyDigits none)

/-- The name as a value. -/
def value : TestName → Value
  | .text s => .text s
  | .number n => .int n
  | .flag b => .bool b

end TestName

/-- The refusal of a name that is taken. -/
structure Duplicate where
  facet : String
  test : TestName
  deriving DecidableEq, Repr

def Duplicate.message (d : Duplicate) : String :=
  "Trying to register test under a name that already exists in facet " ++
    s!"'{d.facet}': {d.test.quoted}"

/-- A named group of tests, in the order they were registered. -/
structure Facet (τ : Type) where
  name : String
  tests : List (TestName × τ) := []
  /-- A test of the facet was ended by an exception. -/
  exceptional : Bool := false

namespace Facet

variable {τ : Type}

/-- The name under which a test is registered; without one it gets the next number. -/
def nameFor (f : Facet τ) (name : Option TestName) : TestName :=
  name.getD (.number (f.tests.length + 1))

/-- What is noted of a registration. -/
def registerNote (f : Facet τ) (name : TestName) : String :=
  s!"Registered test {name.quoted} in facet '{f.name}'"

/-- Registers a test at the end, unless its name is taken. -/
def register (f : Facet τ) (name : Option TestName) (test : τ) :
    Except Duplicate (Facet τ × TestName) :=
  let name := f.nameFor name
  if Entries.contains TestName.same name f.tests then .error { facet := f.name, test := name }
  else .ok ({ f with tests := f.tests ++ [(name, test)] }, name)

/-- Marks that a test was ended by an exception. -/
def markExceptional (f : Facet τ) : Facet τ := { f with exceptional := true }

/-- The same facet with other data for its tests. -/
def map {σ : Type} (g : τ → σ) (f : Facet τ) : Facet σ :=
  { name := f.name, exceptional := f.exceptional
    tests := f.tests.map fun (name, test) => (name, g test) }

end Facet

/-- What a facet amounts to, given the statuses of its tests: exceptions come first; without
tests, or if none was carried out, nothing is implemented; all others must pass. -/
def rollUp (exceptional : Bool) (statuses : List Status) : Status :=
  if exceptional || statuses.contains .exception then .exception
  else if statuses.isEmpty then .notImplemented
  else if statuses.all (· == .pass) then .pass
  else if statuses.all (· == .notImplemented) then .notImplemented
  else .fail

/-- A facet with the results of its tests. -/
abbrev FacetResult := Facet TestResult

namespace FacetResult

def status (f : FacetResult) : Status :=
  rollUp f.exceptional (f.tests.map fun (_, t) => t.status)

end FacetResult

/-- What a report shows of a facet: one entry for each displayed name. -/
structure FacetReport where
  name : String
  status : Status
  tests : List (String × TestReport)

/-- What a report shows of a test. -/
def FacetReport.entry (m : Memory) (test : TestName × TestResult) :
    Except Fault (String × TestReport) := do
  return (← test.1.written test.1.display, ← test.2.report m)

def FacetResult.report (m : Memory) (f : FacetResult) : Except Fault FacetReport :=
  (f.tests.mapM (FacetReport.entry m)).map fun tests =>
    { name := f.name, status := f.status, tests := Entries.ofList (· == ·) tests }

end Assay
