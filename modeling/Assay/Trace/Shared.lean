import Assay.Trace.Result

/-! # Traces with shared records

Records that are made first and entered into a trace later can be entered more than once. Such
a record has one set of links, those of the last time, and following them can go in circles.
-/

namespace Assay

/-- Records in the order they were made, and the places of a trace by their numbers. -/
structure SharedTrace where
  records : List Record := []
  order : List Nat := []
  status : Status := .notImplemented
  failPoint : Option Nat := none

namespace SharedTrace

def make (s : SharedTrace) (r : Record) : SharedTrace :=
  { s with records := s.records ++ [r] }

def modify (s : SharedTrace) (i : Nat) (f : Record → Record) : SharedTrace :=
  { s with records := s.records.modify i f }

/-- Enters a record at the end of the trace. -/
def enter (s : SharedTrace) (i : Nat) : SharedTrace :=
  let n := s.order.length
  let s := s.modify i fun r =>
    { r with index := some n, previous := if n = 0 then r.previous else some (n - 1) }
  let s := match s.order.getLast? with
    | some last => s.modify last fun r => { r with next := some n }
    | none => s
  { s with order := s.order ++ [i] }

/-- The trace as a test result. -/
def result (s : SharedTrace) : TestResult :=
  { status := s.status, trace := s.order.filterMap (s.records[·]?), failPoint := s.failPoint }

end SharedTrace

end Assay
