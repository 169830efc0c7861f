import Assay.Clause.Basic
import Assay.Facet.Basic
import Assay.Likeness
import Assay.Log

/-! # Calls on clauses

A call runs the code it is given between the steps of its clause. Whatever that code raises
ends the test: the clause records it and raises in turn. Requests to end the process pass
through, and `err` takes what is raised for its subject.
-/

namespace Assay

/-- What code raises that does not come to its end. An exception on the heap stands behind it. -/
inductive Raised where
  | error (a : Address)
  /-- A request to end the process, which ordinary handlers let pass. -/
  | interrupt (a : Address)
  /-- Code that a clause ran has raised; class and text of the cause are kept. -/
  | aborted (a : Address) (o : Operation) (cause : ClassName) (text : String)
  | misused (a : Address) (m : Misuse)
  | duplicate (a : Address) (d : Duplicate)
  deriving DecidableEq, Repr

/-- What is said of a test that an exception has ended. -/
def abortMessage (o : Operation) (text : String) : String :=
  s!"Clause aborted in '{o.name}': {text}"

namespace Raised

/-- The exception on the heap. -/
def address : Raised → Address
  | .error a | .interrupt a | .aborted a _ _ _ | .misused a _ | .duplicate a _ => a

def isInterrupt : Raised → Bool
  | .interrupt _ => true
  | _ => false

/-- Whether a group lets it pass without a record of its own. -/
def leavesGroups : Raised → Bool
  | .interrupt _ | .aborted _ _ _ _ | .misused _ _ => true
  | .error _ | .duplicate _ _ => false

end Raised

/-- Everything that code works on. -/
structure World where
  memory : Memory
  /-- What clauses get when they are made. -/
  options : Options := .default
  clauses : List (Nat × Clause) := []
  /-- Facets with the numbers of their clauses. -/
  facets : List (Nat × Facet Nat) := []
  log : Array Note := #[]

/-- What code leaves behind and how it ends. -/
abbrev Outcome (α : Type) := World × Except Raised α

namespace Outcome

/-- Goes on with a value; what is raised is passed on. -/
def andThen {α β : Type} (o : Outcome α) (next : World → α → Outcome β) : Outcome β :=
  match o with
  | (w, .ok x) => next w x
  | (w, .error r) => (w, .error r)

end Outcome

/-- Code that a call runs, given the subject. -/
abbrev Block := Value → World → Outcome Value

/-- What is passed where a call takes code. -/
inductive Argument where
  | absent
  /-- A value of the given class, which cannot be called. -/
  | plain (type : ClassName)
  | code (block : Block)

/-- The code that is passed, or the class of what is passed in its place. -/
def Argument.block? : Argument → Except ClassName Block
  | .absent => .error "NoneType"
  | .plain type => .error type
  | .code block => .ok block

namespace World

/-- The clause of a number; one that was never touched is new. -/
def clause (w : World) (i : Nat) : Clause :=
  (Entries.lookup (· == ·) i w.clauses).getD { options := w.options }

def setClause (w : World) (i : Nat) (c : Clause) : World :=
  { w with clauses := Entries.insert (· == ·) i c w.clauses }

def heap (w : World) : Heap := w.memory.heap

def setHeap (w : World) (h : Heap) : World :=
  { w with memory := { w.memory with heap := h } }

def note (w : World) (level : Level) (channel : Channel) (text : String) : World :=
  { w with log := w.log.push { level, channel, text } }

/-- Makes notes about a clause. -/
def debug (w : World) (texts : List String) : World :=
  texts.foldl (fun w text => w.note .debug .clause text) w

/-- Takes over a clause and what is to be noted about it. -/
def update (w : World) (i : Nat) (step : Clause × List String) : World :=
  (w.setClause i step.1).debug step.2

/-- Raises a fault. -/
def raise {α : Type} (w : World) (f : Fault) : Outcome α :=
  let (h, a) := w.heap.raise f
  (w.setHeap h, .error (.error a))

/-- Raises one of the exceptions of this library. -/
def raiseOwn {α : Type} (w : World) (cls : ClassName) (message : String)
    (attrs : List (String × Value)) (raised : Address → Raised) : Outcome α :=
  let (h, args) := w.heap.tuple [.text message]
  let (h, a) := h.alloc { cls, body := .error args, attrs }
  (w.setHeap h, .error (raised a))

/-- Refuses a call. -/
def misuse {α : Type} (w : World) (m : Misuse) : Outcome α :=
  w.raiseOwn Standard.clauseMisused m.message [] (.misused · m)

/-- Takes a snapshot for a clause, if it takes any. -/
def capture (w : World) (i : Nat) (v : Value) : World × Except Fault (Option Snapshot) :=
  if (w.clause i).tracing then
    let (m, s) := w.memory.capture v
    ({ w with memory := m }, s.map some)
  else (w, .ok none)

/-- Records an exception and raises in turn. -/
def abort {α : Type} (w : World) (i : Nat) (o : Operation) (role : Role) (error : Address) :
    Outcome α :=
  match w.heap.errorText (.ref error) with
  | .error f => w.raise f
  | .ok text =>
    match w.capture i (.ref error) with
    | (w, .error f) => w.raise f
    | (w, .ok captured) =>
      let message := abortMessage o text
      let w := (w.setClause i ((w.clause i).abort o role text captured)).note .info .clause message
      w.raiseOwn Standard.clauseAborted message
        [("operation", .member (Standard.operationMember o)), ("error", .ref error)]
        (.aborted · o (w.heap.object error).cls text)

/-- Runs code that was passed to a call and records what it raises. -/
def produce (w : World) (i : Nat) (o : Operation) (role : Role) (arg : Argument) (subject : Value) :
    Outcome Value :=
  match arg.block? with
  | .error type => w.misuse (.notCallable o type)
  | .ok block =>
    match block subject w with
    | (w, .ok v) => (w, .ok v)
    | (w, .error r) => if r.isInterrupt then (w, .error r) else w.abort i o role r.address

/-- Makes a value the subject of a clause. -/
def setSubject (w : World) (i : Nat) (o : Operation) (v : Value) : Outcome Unit :=
  match w.capture i v with
  | (w, .error f) => w.raise f
  | (w, .ok captured) => (w.setClause i ((w.clause i).setSubject o captured v), .ok ())

/-- Sets a subject for the time up to the next verdict. -/
def pick (w : World) (i : Nat) (arg : Argument) : Outcome Unit :=
  match (w.clause i).subject with
  | none => w.misuse (.noSubject .pick)
  | some subject =>
    (w.produce i .pick .setter arg subject).andThen fun w v =>
      (w.setSubject i .pick v).andThen fun w _ =>
        (w.setClause i { w.clause i with restore := some subject }, .ok ())

/-- Makes what code raises the subject, or null if it comes to its end. -/
def catchError (w : World) (i : Nat) (arg : Argument) : Outcome Unit :=
  match arg.block? with
  | .error type => w.misuse (.notCallable .err type)
  | .ok block =>
    match block .null w with
    | (w, .ok _) => w.setSubject i .err .null
    | (w, .error r) =>
      if r.isInterrupt then (w, .error r)
      else match w.heap.errorText (.ref r.address) with
        | .error f => w.raise f
        | .ok text => (w.debug [s!"err captured {text}"]).setSubject i .err (.ref r.address)

/-- What a matcher finds. Leaves are alike if they are equal. -/
def compare (h : Heap) (m : Matcher) (subject expected : Value) : Except Fault Bool :=
  match m with
  | .is => h.equal subject expected
  | .like => if h.isLeaf expected then h.equal subject expected else h.like subject expected
  | .isType => h.isInstance subject expected

/-- Judges the subject by an expected value. -/
def judge (w : World) (i : Nat) (m : Matcher) (expected : Value) : Outcome Unit :=
  match compare w.heap m ((w.clause i).subject.getD .null) expected with
  | .error f =>
    let (h, a) := w.heap.raise f
    (w.setHeap h).abort i m.operation .matcher a
  | .ok matched =>
    match w.capture i expected with
    | (w, .error f) => w.raise f
    | (w, .ok captured) => (w.update i ((w.clause i).judge m captured matched), .ok ())

/-- Runs code as a group of its own, whose status is the verdict on the operator before it. -/
def group (w : World) (i : Nat) (owner : Operator) (arg : Argument) : Outcome Unit :=
  match arg.block? with
  | .error type => w.misuse (.notCallable (.logic owner) type)
  | .ok block =>
    let outer := w.clause i
    let (w, result) := block .null (w.setClause i outer.openGroup)
    let inner := w.clause i
    let inner := { inner with depth := inner.depth - 1 }
    let w := w.setClause i inner
    match result with
    | .error r =>
      if r.leavesGroups then (w, .error r) else w.abort i (.logic owner) .logic r.address
    | .ok _ =>
      if inner.result.status = .notImplemented then w.misuse (.unresolvedGroup owner)
      else (w.update i (Clause.closeGroup outer inner), .ok ())

/-- Issues an operator, and runs a group if there is one. -/
def logic (w : World) (i : Nat) (op : Operator) (arg : Argument) : Outcome Unit :=
  match (w.clause i).addOperator op with
  | .error m => w.misuse m
  | .ok step =>
    match arg with
    | .absent => (w.update i step, .ok ())
    | arg => (w.update i step).group i op arg

/-- Carries out a call on a clause. -/
def perform (w : World) (i : Nat) (call : Call) (arg : Argument) : Outcome Unit :=
  match call with
  | .that => (w.produce i .that .setter arg .null).andThen fun w v => w.setSubject i .that v
  | .pick => w.pick i arg
  | .err => w.catchError i arg
  | .check m =>
    if (w.clause i).subject.isNone then w.misuse (.noSubject m.operation)
    else (w.produce i m.operation .matcher arg .null).andThen fun w v => w.judge i m v
  | .logic op => w.logic i op arg

/-- Class and text of an exception. -/
def told (w : World) (a : Address) : ClassName × String :=
  let text := match w.heap.display (.ref a) with
    | .ok text => text
    | .error _ => ""
  ((w.heap.object a).cls, text)

/-- The difference that explains a failure, which is noted as it is found. -/
def explain (w : World) (t : TestResult) : World × Except Fault (Option Snapshot) :=
  let (notes, found) := t.failureDiff w.memory
  (notes.foldl (fun w text => w.note .debug .difference text) w, found)

/-- The facet of a number. -/
def facet (w : World) (i : Nat) : Facet Nat :=
  (Entries.lookup (· == ·) i w.facets).getD { name := "" }

def setFacet (w : World) (i : Nat) (f : Facet Nat) : World :=
  { w with facets := Entries.insert (· == ·) i f w.facets }

/-- A facet with the results its tests have so far. -/
def facetResult (w : World) (i : Nat) : FacetResult :=
  (w.facet i).map fun c => (w.clause c).result

/-- Registers a test with a facet and makes its clause. A test is registered by the time that it
turns out that its name cannot be written. -/
def register (w : World) (facet : Nat) (name : Option TestName) : Outcome Nat :=
  let f := w.facet facet
  let i := Entries.fresh w.clauses
  match f.register name i with
  | .error d =>
    match d.test.written d.message with
    | .error fault => w.raise fault
    | .ok message =>
      w.raiseOwn Standard.duplicateTest message
        [("facet_name", .text d.facet), ("test_name", d.test.value)] (.duplicate · d)
  | .ok (f', name) =>
    let w := (w.setFacet facet f').setClause i { options := w.options }
    match name.written (f.registerNote name) with
    | .error fault => w.raise fault
    | .ok text => (w.note .debug .results text, .ok i)

end World

end Assay
