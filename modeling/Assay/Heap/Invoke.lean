import Assay.Heap.Convert

/-! # Calling classes and functions

A class or a function that is passed where code is expected is called with no argument, or
with the subject.
-/

namespace Assay.Heap

/-- Whether a value can be called. -/
def isCallable : Value → Bool
  | .cls _ | .function _ => true
  | _ => false

/-- Names put together for a message. -/
def nameList : List String → String
  | [] => ""
  | [a] => s!"'{a}'"
  | [a, b] => s!"'{a}' and '{b}'"
  | names =>
    let last := names.getLast?.getD ""
    ", ".intercalate (names.dropLast.map fun n => s!"'{n}'") ++ s!", and '{last}'"

/-- What is said of a record whose fields are not all given. -/
def missingArguments (c : ClassName) (names : List String) : Fault :=
  let word := if names.length == 1 then "argument" else "arguments"
  .typeError s!"{c}.__init__() missing {names.length} required positional {word}: {nameList names}"

/-- A new object with a body made from a result. -/
def allocResult {α : Type} (h : Heap) (cls : ClassName) (body : α → Body) :
    Except Fault α → Heap × Except Fault Value
  | .error e => (h, .error e)
  | .ok x =>
    let (h, a) := h.alloc { cls, body := body x }
    (h, .ok (.ref a))

/-- A new object of a class that has no content of its own. -/
def instantiate (h : Heap) (c : ClassName) (args : List Value) : Heap × Except Fault Value :=
  if h.isSubclass c "BaseException" then
    let (h, a) := h.newError c args
    (h, .ok (.ref a))
  else match (h.classes c).source with
    | .record names =>
      let required := (names.drop args.length).filter fun n => (h.classData? c n).isNone
      if required.isEmpty then
        let rest := (names.drop args.length).filterMap fun n => (h.classData? c n).map (n, ·)
        let (h, a) := h.alloc { cls := c, attrs := names.zip args ++ rest }
        (h, .ok (.ref a))
      else (h, .error (missingArguments c required))
    | _ =>
      if args.isEmpty then h.allocResult c (fun _ => .plain) (.ok ())
      else (h, .error (.typeError s!"{c}() takes no arguments"))

/-- Calls a class with at most one argument. -/
def construct (h : Heap) (c : ClassName) (args : List Value) : Heap × Except Fault Value :=
  let info := h.classes c
  let arg := args.head?
  let items : Except Fault (List Value) := match arg with
    | none => .ok []
    | some v => h.items v
  if !info.members.isEmpty then
    match arg with
    | none => (h, .error (.typeError
        "EnumType.__call__() missing 1 required positional argument: 'value'"))
    | some v =>
      match info.members.find? fun (_, m) => v == .member m || (match m.payload with
          | .number n => v.int? == some n
          | .text s => v.text? == some s) with
      | some (_, m) => (h, .ok (.member m))
      | none => (h, (h.repr v).bind fun text =>
          .error (.valueError s!"{text} is not a valid {c}"))
  else match c with
  | "int" => (h, (arg.map h.toInteger).getD (.ok (.int 0)))
  | "bool" => (h, .ok (.bool ((arg.map h.truth).getD false)))
  | "float" => (arg.map h.toFloat).getD (h, .ok (.float (.finite false 0 (-1074))))
  | "str" => (h, match arg with
      | none => .ok (.text "")
      | some v => (h.display v).map .text)
  | "bytes" => (h, items.bind fun vs => (vs.mapM (h.byteOf "bytes")).map .bytes)
  | "NoneType" =>
    (h, if args.isEmpty then .ok .null else .error (.typeError "NoneType takes no arguments"))
  | "type" =>
    (h, match arg with
      | some v => .ok (.cls (h.typeOf v))
      | none => .error (.typeError "type() takes 1 or 3 arguments"))
  | "timedelta" => (h, .ok (.duration (.of 0 0 0)))
  | "range" => (h, match arg with
      | none => .error (.typeError "range expected at least 1 argument, got 0")
      | some v => match v.int? with
        | some n => .ok (.range 0 n 1)
        | none => .error (.typeError
            s!"'{h.messageName (h.typeOf v)}' object cannot be interpreted as an integer"))
  | "date" | "datetime" =>
    (h, .error (.typeError "function missing required argument 'year' (pos 1)"))
  | "mappingproxy" =>
    (h, .error (.typeError "mappingproxy() missing required argument 'mapping' (pos 1)"))
  | "Pattern" | "builtin_function_or_method" =>
    (h, .error (.typeError s!"cannot create '{h.messageName c}' instances"))
  | "tuple" =>
    match items with
    | .error e => (h, .error e)
    | .ok vs =>
      let (h, t) := h.tuple vs
      (h, .ok t)
  | "bytearray" =>
    h.allocResult c .octets (items.bind fun vs => vs.mapM (h.byteOf "byte"))
  | "frozenset" | "set" =>
    h.allocResult c (.members (c == "frozenset")) ((arg.map h.asMembers).getD (.ok []))
  | _ =>
    if h.isSubclass c "list" then h.allocResult c (.sequence .list) items
    else if c == "deque" then h.allocResult c (.sequence .deque) items
    else if h.isSubclass c "dict" then
      let kind := if c == "OrderedDict" then MappingKind.ordered
        else if c == "defaultdict" then .defaulting else .dict
      h.allocResult c (.mapping kind) (match arg with
        | none => .ok []
        | some v => h.asDictionary v)
    else h.instantiate c args

/-- Calls a value. -/
def invoke (h : Heap) (callee : Value) (args : List Value) : Heap × Except Fault Value :=
  match callee, args with
  | .cls c, _ => h.construct c args
  | .function "len", [v] => (h, (h.length v).map fun n => .int n)
  | .function "abs", [v] => (h, h.absolute v)
  | .function name, _ => (h, .error (.typeError
      s!"{name}() takes exactly one argument ({args.length} given)"))
  | _, _ => (h, .error (.typeError
      s!"'{h.messageName (h.typeOf callee)}' object is not callable"))

end Assay.Heap
