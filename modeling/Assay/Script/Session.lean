import Assay.Facet.Run
import Assay.Script.Step

/-! # Sessions

A session carries out the steps of a script one by one on a single clause and tells after each
one what has changed. A step that raises does not end it.
-/

namespace Assay.Script

/-- What is told after a step. -/
structure StepReport where
  raised : Option Raised
  /-- Details of the records that are new or have changed. -/
  changed : List String
  status : Status
  failPoint : Option Nat
  /-- The summary of the subject, which reads as null until there is one. -/
  subject : Except Fault String

namespace Session

/-- The details of all records of the clause. -/
def details (w : World) : List String :=
  (w.clause 0).result.trace.map Record.details

/-- Those of the new lines that are not where they were before. -/
def changes : List String → List String → List String
  | old :: olds, new :: news =>
    if old == new then changes olds news else new :: changes olds news
  | _, news => news

/-- The summary of a value, whose composites are numbered by it. -/
def summarize (w : World) (v : Value) : World × Except Fault String :=
  let (m, result) := w.memory.capture v
  ({ w with memory := m }, result.bind fun s => (m.numbered s).summary m.heap)

/-- Carries out a step. -/
def step (w : World) (s : Step) : World × StepReport :=
  let before := details w
  let (w, outcome) := (s.toCode 0).run w
  let raised := match outcome with
    | .ok _ => none
    | .error r => some r
  let result := (w.clause 0).result
  let (w', subject) := summarize w ((w.clause 0).subject.getD .null)
  (w', { raised, changed := changes before (details w), status := result.status
         failPoint := result.failPoint, subject })

/-- Carries out steps one after the other. -/
def steps (w : World) : List Step → World × List StepReport
  | [] => (w, [])
  | s :: rest =>
    let (w, report) := step w s
    let (w, reports) := steps w rest
    (w, report :: reports)

end Session

/-- Runs one facet whose body is given by statements. -/
def runBody (w : World) (name : String) (body : List Statement) : Outcome Nat :=
  w.runFacet name fun facet => Statement.bodyCode facet [] body

/-- Runs facets whose bodies are given by statements; of two with one name the latter runs, in
the place of the former. -/
def runBodies (w : World) (bodies : List (String × List Statement)) :
    Outcome (List Nat × Summary) :=
  w.runFacets ((Entries.ofList (· == ·) bodies).map fun (name, body) =>
    (name, fun facet => Statement.bodyCode facet [] body))

end Assay.Script
