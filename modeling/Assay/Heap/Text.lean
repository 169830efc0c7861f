import Assay.Heap.Equality
import Assay.Heap.Numeral

/-! # The text of values

Every value has a text that shows what it is made of. An object that is being written already
is not written again inside itself: three dots stand for it.
-/

namespace Assay

namespace Value

/-- Names of pattern flags by their bit. A text pattern does not name the bit 32. -/
def flagNames : List (Nat × String) :=
  [(1, "re.TEMPLATE"), (2, "re.IGNORECASE"), (4, "re.LOCALE"), (8, "re.MULTILINE"),
    (16, "re.DOTALL"), (64, "re.VERBOSE"), (128, "re.DEBUG"), (256, "re.ASCII")]

/-- The text of a pattern: the source, cut to two hundred characters, and the flags. -/
def patternText (source : String) (flags : Nat) : String :=
  let names := (flagNames.filter fun (bit, _) => flags / bit % 2 == 1).map (·.2)
  let quoted := String.ofList ((Text.quote source).toList.take 200)
  let tail := if names.isEmpty then "" else ", " ++ "|".intercalate names
  s!"re.compile({quoted}{tail})"

def payloadText : Payload → String
  | .number n => toString n
  | .text s => Text.quote s

def memberText (m : Member) : String :=
  s!"<{m.cls}.{m.name}: {payloadText m.payload}>"

def rangeText (start stop step : Int) : String :=
  if step == 1 then s!"range({start}, {stop})" else s!"range({start}, {stop}, {step})"

end Value

namespace Heap

/-- The text of a class: its name, with the module unless that is the built-in one. -/
def classText (h : Heap) (c : ClassName) : String :=
  let info := h.classes c
  if !info.members.isEmpty then s!"<enum '{c}'>"
  else if info.home == "builtins" then s!"<class '{c}'>"
  else s!"<class '{info.home}.{c}'>"

/-- The text of an object of which nothing is known but its class. -/
def objectText (h : Heap) (c : ClassName) : String :=
  let info := h.classes c
  if info.home == "builtins" then s!"<{c} object>" else s!"<{info.home}.{c} object>"

/-- The text of a value that is no reference; of integers, whatever their length. -/
def plainText (h : Heap) : Value → String
  | .null => "None"
  | .bool b => if b then "True" else "False"
  | .int n => toString n
  | .float x => x.text
  | .nan _ => "nan"
  | .text s => Text.quote s
  | .bytes bs => Text.quoteBytes bs
  | .pattern source flags => Value.patternText source flags
  | .member m => Value.memberText m
  | .range start stop step => Value.rangeText start stop step
  | .date d => d.text
  | .moment m => m.text
  | .duration d => d.text
  | .cls c => h.classText c
  | .function name => s!"<built-in function {name}>"
  | .ref a => h.objectText (h.object a).cls

def commaList (texts : List String) : String := ", ".intercalate texts

/-- A tuple of one member keeps its comma. -/
def tupleText : List String → String
  | [x] => s!"({x},)"
  | xs => "(" ++ commaList xs ++ ")"

/-- Fields written as `name=text`. -/
def recordText (c : ClassName) (fields : List (String × String)) : String :=
  c ++ "(" ++ commaList (fields.map fun (name, text) => s!"{name}={text}") ++ ")"

/-- What stands for an object inside itself. -/
def dotsText (h : Heap) (o : Object) : String :=
  match o.body with
  | .sequence .tuple _ => "(...)"
  | .sequence _ _ => "[...]"
  | .mapping .ordered _ | .plain => "..."
  | .mapping .defaulting _ => "defaultdict(<class 'list'>, \x7b...\x7d)"
  | .mapping _ _ => "\x7b...\x7d"
  | .members _ _ => s!"{o.cls}(...)"
  | .octets _ | .error _ => h.objectText o.cls

/-- Writes the members of a list one after the other; the first failure is the result. -/
def textAll (write : Value → Except Fault String) : List Value → Except Fault (List String)
  | [] => .ok []
  | v :: rest =>
    match write v with
    | .error e => .error e
    | .ok s => (textAll write rest).map (s :: ·)

/-- Writes entries as keys and values with a separator between them. -/
def entryTexts (write : Value → Except Fault String) (separator : String)
    (entries : List (Value × Value)) : Except Fault (List String) :=
  entries.mapM fun (k, v) => do
    let key ← write k
    let value ← write v
    return key ++ separator ++ value

/-- Writes the entries of a dictionary in braces. -/
def dictText (write : Value → Except Fault String) (entries : List (Key × Value)) :
    Except Fault String := do
  let texts ← entryTexts write ": " (entries.map fun (k, v) => (k.value, v))
  return "\x7b" ++ commaList texts ++ "\x7d"

/-- The text of an object, given how its members are written. -/
def bodyText (h : Heap) (write : Value → Except Fault String) (a : Address) :
    Except Fault String :=
  let o := h.object a
  match o.body with
  | .sequence .tuple items =>
    match (h.classes o.cls).text with
    | .record fields => do return recordText o.cls (fields.zip (← textAll write items))
    | _ => do return tupleText (← textAll write items)
  | .sequence .list items => do return "[" ++ commaList (← textAll write items) ++ "]"
  | .sequence .deque items => do
    return s!"{o.cls}([" ++ commaList (← textAll write items) ++ "])"
  | .mapping .dict entries => dictText write entries
  | .mapping .ordered [] => .ok s!"{o.cls}()"
  | .mapping .ordered entries => do
    -- every key is looked up before any is written
    let entries ← entries.mapM fun (k, _) => (h.underOwn h.equal k.value entries).map (k.value, ·)
    let pairs := (← entryTexts write ", " entries).map fun pair => "(" ++ pair ++ ")"
    return s!"{o.cls}([" ++ commaList pairs ++ "])"
  | .mapping .defaulting entries => do
    return s!"{o.cls}(<class 'list'>, " ++ (← dictText write entries) ++ ")"
  | .mapping .view entries => do return "mappingproxy(" ++ (← dictText write entries) ++ ")"
  | .mapping .frozen _ => .ok (h.objectText o.cls)
  | .members _ [] => .ok s!"{o.cls}()"
  | .members frozen items => do
    let inner := "\x7b" ++ commaList (← textAll write (Key.inSetOrder items)) ++ "\x7d"
    return if frozen then s!"{o.cls}({inner})" else inner
  | .octets bs => .ok (s!"{o.cls}(" ++ Text.quoteOctets bs ++ ")")
  | .error args => do
    let items := match args with
      | .ref b => match (h.object b).body with
        | .sequence _ items => items
        | _ => []
      | _ => []
    return o.cls ++ "(" ++ commaList (← textAll write items) ++ ")"
  | .plain =>
    match (h.classes o.cls).text with
    | .plain => .ok (h.objectText o.cls)
    | .custom custom => custom h.objects a
    | .record fields => do
      let texts ← fields.mapM fun name =>
        match h.attribute? a name with
        | none => .error (.noAttribute (h.messageName o.cls) name)
        | some v => (write v).map fun s => (name, s)
      return recordText o.cls texts

/-- The text of a value inside the objects of the given path. -/
def reprWithin (h : Heap) : Nat → List Address → Value → Except Fault String
  | 0, _, _ => .error .tooDeep
  | budget + 1, path, v =>
    match v with
    | .ref a =>
      if path.contains a then .ok (h.dotsText (h.object a))
      else h.bodyText (h.reprWithin budget (a :: path)) a
    | .int n => writeInteger n
    | _ => .ok (h.plainText v)

/-- The text that shows what a value is made of. No object is entered inside itself, so one
step for each object is enough. -/
def repr (h : Heap) (v : Value) : Except Fault String :=
  h.reprWithin (h.objects.size + 2) [] v

/-- The arguments of an exception. -/
def errorArgs (h : Heap) (a : Address) : List Value :=
  match (h.object a).body with
  | .error (.ref b) =>
    match (h.object b).body with
    | .sequence _ items => items
    | _ => []
  | _ => []

/-- The text a reader is shown: texts as they are, exceptions by their arguments, and all
else as `repr` writes it. -/
def displayWithin (h : Heap) : Nat → Value → Except Fault String
  | 0, _ => .error .tooDeep
  | budget + 1, v =>
    match v with
    | .text s => .ok s
    | .member m =>
      match m.transparent, m.payload with
      | true, .number n => .ok (toString n)
      | _, _ => .ok s!"{m.cls}.{m.name}"
    | .date d => .ok d.phrase
    | .moment m => .ok m.phrase
    | .duration d => .ok d.phrase
    | .ref a =>
      match (h.object a).body with
      | .error args =>
        match h.errorArgs a with
        | [] => .ok ""
        | [x] => if h.isSubclass (h.object a).cls "KeyError" then h.repr x
          else h.displayWithin budget x
        | _ => h.repr args
      | _ => h.repr v
    | _ => h.repr v

/-- The text a reader is shown for a value. -/
def display (h : Heap) (v : Value) : Except Fault String :=
  h.displayWithin (h.objects.size + 2) v

/-- The class name and the text of what was raised, as messages give them. -/
def errorText (h : Heap) (v : Value) : Except Fault String :=
  (h.display v).map fun text => s!"{h.typeOf v}: {text}"

end Heap

end Assay
