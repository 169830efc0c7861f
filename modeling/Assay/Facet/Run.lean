import Assay.Clause.Code
import Assay.Facet.Summary

/-! # Running facets

The body of a facet registers tests and works on their clauses. An exception inside a clause
ends the body and marks the facet; whatever else the body raises is passed on.
-/

namespace Assay.World

/-- Notes how a facet has ended. -/
def finishFacet (w : World) (i : Nat) : World :=
  w.note .info .run
    s!"Facet '{(w.facet i).name}' finished: {(w.facetResult i).status.name}"

/-- Runs the body of a facet, which is told the number of the facet. -/
def runFacet (w : World) (name : String) (body : Nat → Code) : Outcome Nat :=
  let i := Entries.fresh w.facets
  let w := (w.setFacet i { name }).note .info .run s!"Running facet '{name}'"
  match (body i).run w with
  | (w, .ok _) => (w.finishFacet i, .ok i)
  | (w, .error (.aborted _ o _ text)) =>
    let w := w.setFacet i (w.facet i).markExceptional
    let w := w.note .info .run s!"Facet '{name}' aborted: {abortMessage o text}"
    (w.finishFacet i, .ok i)
  | (w, .error r) => (w, .error r)

/-- Runs facets one after the other. -/
def runEach (w : World) : List (String × (Nat → Code)) → Outcome (List Nat)
  | [] => (w, .ok [])
  | (name, body) :: rest =>
    (w.runFacet name body).andThen fun w i =>
      (w.runEach rest).andThen fun w is => (w, .ok (i :: is))

/-- Runs facets one after the other and sums up how they ended. -/
def runFacets (w : World) (bodies : List (String × (Nat → Code))) :
    Outcome (List Nat × Summary) :=
  (w.runEach bodies).andThen fun w is =>
    let summary := Summary.ofFacets (is.map w.facetResult)
    (w.note .info .run summary.text, .ok (is, summary))

end Assay.World
