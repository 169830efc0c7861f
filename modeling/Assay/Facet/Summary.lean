import Assay.Facet.Basic

/-! # Summaries

A summary counts facets by their outcome. Summaries of groups add up to that of the whole.
-/

namespace Assay

/-- Counts of facets. Those that were ended by an exception count as failed. -/
structure Summary where
  passed : Int := 0
  failed : Int := 0
  notImplemented : Int := 0
  deriving DecidableEq, Repr

namespace Summary

/-- How many facets were carried out. -/
def ran (s : Summary) : Int := s.passed + s.failed

def total (s : Summary) : Int := s.ran + s.notImplemented

/-- Counts outcomes. -/
def ofStatuses (statuses : List Status) : Summary where
  passed := statuses.count .pass
  failed := statuses.count .fail + statuses.count .exception
  notImplemented := statuses.count .notImplemented

/-- Counts the outcomes of facets. -/
def ofFacets (facets : List FacetResult) : Summary :=
  ofStatuses (facets.map FacetResult.status)

instance : Add Summary where
  add s t :=
    { passed := s.passed + t.passed, failed := s.failed + t.failed
      notImplemented := s.notImplemented + t.notImplemented }

/-- What stands in a sum: a summary, or any other value, which adds up with nothing. -/
abbrev Addend := Summary ⊕ Value

/-- The class of what stands in a sum, as messages give it. -/
def addendName (h : Heap) : Addend → String
  | .inl _ => "FacetSummary"
  | .inr v => h.messageName (h.typeOf v)

/-- Adds two things that need not be summaries. -/
def plus (h : Heap) : Addend → Addend → Except Fault Summary
  | .inl s, .inl t => .ok (s + t)
  | x, y => .error (.typeError
      s!"unsupported operand type(s) for +: '{addendName h x}' and '{addendName h y}'")

/-- The summary on one line. -/
def text (s : Summary) : String :=
  s!"{s.passed}/{s.total} facets passed " ++
    s!"({s.failed} failed, {s.notImplemented} not implemented)"

end Summary

end Assay
