import Assay.Log
import Assay.Options.Check

/-! # Options from a document

What a document says is applied to the default options. Only a document without problems is
meant to be applied, but any value can be tried.
-/

namespace Assay

/-- The exception that a refused request raises. -/
def OptionsError.fault (e : OptionsError) : Fault := .valueError e.message

namespace Document

/-- The flags that a value gives: nothing for what is false, else the items it yields. -/
def flagItems (h : Heap) (flags : Value) : Except Fault (List Key) :=
  if !h.truth flags then .ok [] else h.asMembers flags

/-- Puts unknown flags in order and together, which only texts can be. -/
def joinUnknown (h : Heap) (unknown : List Value) : Except Fault String :=
  match unknown.mapM Value.text? with
  | some words => .ok (String.join (sortWords words))
  | none =>
    match unknown.find? (fun v => v.text?.isNone), unknown.find? (fun v => v.text?.isSome) with
    | some v, some w => .error (.typeError
        s!"'<' not supported between instances of '{h.messageName (h.typeOf v)}' and '{h.messageName (h.typeOf w)}'")
    | some v, none => .error (.typeError
        s!"sequence item 0: expected str instance, {h.messageName (h.typeOf v)} found")
    | none, _ => .ok ""

/-- Shows the conditions whose flags a value gives, and hides all others of the level. -/
def applyFlags (h : Heap) (o : Options) (c : Category) (flags : Value) :
    Except Fault Options := do
  let items ← flagItems h flags
  let isFlag (f : Char) (item : Key) : Bool := item.isText f.toString
  let unknown := items.filter fun item => !c.flags.any (isFlag · item)
  if unknown.isEmpty then return o.setCategory c fun d => items.any (isFlag d.flag)
  else throw (OptionsError.fault (.unknownFlags (← joinUnknown h (unknown.map Key.value)) c))

/-- Applies the flags of every level that a trace section names. -/
def applyLevels (h : Heap) (entries : List (Key × Value)) (o : Options) :
    List Category → Except Fault Options
  | [] => .ok o
  | c :: rest =>
    match h.find? (.text c.name) entries with
    | .error e => .error e
    | .ok none => applyLevels h entries o rest
    | .ok (some flags) =>
      match applyFlags h o c flags with
      | .error e => .error e
      | .ok o => applyLevels h entries o rest

/-- Applies a trace section; what is false counts as an empty one. -/
def applyTrace (h : Heap) (trace : Value) : Except Fault Options :=
  if !h.truth trace then .ok .default
  else
    match get h trace "all", h.shape trace with
    | .error e, _ => .error e
    | .ok all, .mapping _ _ entries =>
      if h.truth all then .ok Options.default.traceAll
      else applyLevels h entries .default Category.all
    | .ok _, _ => .ok .default

/-- The options a document describes, together with a note that they were loaded. -/
def build (h : Heap) (data : Value) : Except Fault (Options × Note) := do
  let o ← applyTrace h (← get h data "trace")
  let given (v old : Value) : Value := if v == .null then old else v
  let showDiff ← get h data "show_diff"
  let stopOnFail ← get h data "stop_on_fail"
  let indent ← get h data "indent"
  let lineLength ← get h data "line_length"
  let o := { o with
    showDiff := given showDiff o.showDiff, stopOnFail := given stopOnFail o.stopOnFail
    indent := given indent o.indent, lineLength := given lineLength o.lineLength }
  let enabled := if o.tracingEnabled then "True" else "False"
  return (o, { level := .debug, channel := .loader
               text := s!"Loaded options, tracing enabled: {enabled}" })

/-- What loading a document gives: options exactly if there are no problems. -/
structure Loaded where
  options : Option Options := none
  problems : List Problem := []
  notes : List Note := []

/-- Fails where a value among the options or the problems cannot be written. -/
def Loaded.checkWritable (h : Heap) (l : Loaded) : Except Fault Unit := do
  let _ ← Problem.report h l.problems
  let shown := match l.options with
    | some o => [o.showDiff, o.indent, o.lineLength, o.stopOnFail]
    | none => []
  let _ ← (l.problems.map (·.value) ++ shown).mapM h.repr

/-- Checks a document and applies it if nothing is wrong with it. An empty document gives the
default options. -/
def load (h : Heap) (data : Value) (source : String) : Except Fault Loaded :=
  if data == .null then
    .ok { options := some .default
          notes := [{ level := .warning, channel := .loader
                      text := s!"Options document {source} is empty, using defaults" }] }
  else if !isDictionary h data then
    .ok { problems := [{ path := source
                         message := "Options must be a YAML object (not a list or scalar)"
                         value := .text (h.typeOf data) }] }
  else do
    let problems ← check h data
    if problems.isEmpty then
      let (o, note) ← build h data
      return { options := some o, notes := [note] }
    else return { problems }

end Document

end Assay
