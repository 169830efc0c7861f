import Assay.Heap.Access
import Assay.Heap.Text
import Assay.Options.Basic

/-! # Checking an options document

A document is checked field by field against what options can be. Every problem is reported with
its path; a field is judged on its own, so one problem never hides another.
-/

namespace Assay

/-- One problem in a document. -/
structure Problem where
  /-- Dotted from the root of the document. -/
  path : String
  message : String
  /-- The offending value; null where none is shown. -/
  value : Value := .null
  suggestion : Option String := none
  deriving DecidableEq, Repr

namespace Problem

/-- A problem in words, with the value and a hint as far as there are any. -/
def text (h : Heap) (p : Problem) : Except Fault String :=
  let line := s!"{p.path}: {p.message}"
  let hint := match p.suggestion with
    | none | some "" => ""
    | some s => s!"\n    hint: {s}"
  if p.value == .null then .ok (line ++ hint)
  else (h.repr p.value).map fun v => s!"{line} (got {v}){hint}"

/-- All problems in words. -/
def report (h : Heap) (ps : List Problem) : Except Fault String :=
  if ps.isEmpty then .ok "facet options: ok"
  else (ps.mapM (text h)).map fun lines =>
    "\n".intercalate (s!"facet options: {ps.length} problem(s)" :: lines.map fun l => s!"  - {l}")

end Problem

namespace Document

/-- The fields a document can have at the top. -/
def topLevel : List String := ["trace", "show_diff", "indent", "line_length", "stop_on_fail"]

/-- The keys that the trace section can have. -/
def traceKeys : List String := "all" :: Category.all.map Category.name

/-- Words in alphabetical order. -/
def sortWords (words : List String) : List String :=
  words.mergeSort fun a b => Text.precedes a.toList b.toList

/-- The value of a field of a mapping, null where it is missing; only mappings can be asked. -/
def get (h : Heap) (data : Value) (name : String) : Except Fault Value :=
  match h.shape data with
  | .mapping _ _ entries => (h.find? (.text name) entries).map (·.getD .null)
  | _ => .error (h.lacks data "get")

/-- Whether a value is a dictionary, as opposed to any other mapping. -/
def isDictionary (h : Heap) (v : Value) : Bool :=
  match v with
  | .ref a =>
    match (h.object a).body with
    | .mapping .dict _ | .mapping .ordered _ | .mapping .defaulting _ => true
    | _ => false
  | _ => false

def isBool : Value → Bool
  | .bool _ => true
  | _ => false

/-- Keys of a value that are not among the known words, ordered by their text. -/
def unknownKeys (h : Heap) (known : List String) (v : Value) : Except Fault (List String) := do
  let keys := (← h.asMembers v).filter fun k => !known.any k.isText
  return sortWords (← keys.mapM fun k => h.display k.value)

/-- Problems with keys at the top. -/
def checkTopLevel (h : Heap) (data : Value) : Except Fault (List Problem) := do
  let valid := ", ".intercalate (sortWords topLevel)
  return (← unknownKeys h topLevel data).map fun key =>
    { path := key, message := s!"Unknown top-level field '{key}'"
      suggestion := some s!"Valid fields are: {valid}" }

/-- Problems with the flags of one level. -/
def checkFlags (c : Category) (flags : Value) : List Problem :=
  let path := s!"trace.{c.name}"
  if flags == .null then []
  else match flags.text? with
    | none => [{ path, message := "Must be a string of flag characters", value := flags
                 suggestion := some "Use e.g. 'fe' for fail and exception" }]
    | some s =>
      match Options.unknownFlags c s.toList with
      | [] => []
      | unknown =>
        let hints := c.conditions.map fun d => s!"{d.flag}={d.name}"
        [{ path, message := s!"Unknown flag(s): {String.ofList unknown}", value := flags
           suggestion := some (", ".intercalate hints) }]

/-- Problems with what must be true or false, where it is given. -/
def checkBool (path : String) (v : Value) : List Problem :=
  if v == .null || isBool v then [] else [{ path, message := "Must be a boolean", value := v }]

/-- Problems with a trace section that is a dictionary. -/
def checkTraceKeys (h : Heap) (trace : Value) : Except Fault (List Problem) := do
  let valid := ", ".intercalate (sortWords traceKeys)
  let unknown := (← unknownKeys h traceKeys trace).map fun key =>
    { path := s!"trace.{key}", message := s!"Unknown trace category '{key}'"
      suggestion := some s!"Valid categories are: {valid}" : Problem }
  let all := checkBool "trace.all" (← get h trace "all")
  let flags ← Category.all.mapM fun c => (get h trace c.name).map (checkFlags c)
  return unknown ++ all ++ flags.flatten

/-- Problems with the trace section. -/
def checkTrace (h : Heap) (data : Value) : Except Fault (List Problem) := do
  let trace ← get h data "trace"
  if trace == .null then return []
  else if !isDictionary h trace then
    return [{ path := "trace", message := "Must be an object", value := trace }]
  else checkTraceKeys h trace

/-- Problems with the indent. -/
def checkIndent (v : Value) : List Problem :=
  if v == .null || v.text?.isSome then []
  else [{ path := "indent", message := "Must be a string", value := v
          suggestion := some "Quote the value, e.g. indent: \"  \"" }]

/-- Whether a value is a line length: an integer from one up, but no truth value. -/
def isLineLength (v : Value) : Bool :=
  !isBool v && match v.int? with
    | some n => 1 ≤ n
    | none => false

/-- Problems with the line length. -/
def checkLineLength (v : Value) : List Problem :=
  if v == .null || isLineLength v then []
  else [{ path := "line_length", message := "Must be a positive integer", value := v }]

/-- Every problem of a document, in the order of the checks. -/
def check (h : Heap) (data : Value) : Except Fault (List Problem) := do
  let top ← checkTopLevel h data
  let trace ← checkTrace h data
  let showDiff ← get h data "show_diff"
  let stopOnFail ← get h data "stop_on_fail"
  let indent ← get h data "indent"
  let lineLength ← get h data "line_length"
  return top ++ trace ++ checkBool "show_diff" showDiff ++ checkBool "stop_on_fail" stopOnFail ++
    checkIndent indent ++ checkLineLength lineLength

end Document

end Assay
