import Assay.Clause.Code
import Assay.Heap.Invoke
import Assay.Script.Literal

/-! # Steps

Scripts of calls on one clause, and the code they stand for. Values are made when a step is
carried out, and what a step passes to a call is code that works on the same clause.
-/

namespace Assay.Script

/-- What is done to the subject that code is given. -/
inductive Projection where
  | length
  | item (key : Literal)
  | attr (name : String)
  | type
  | same

/-- How code that a call runs comes to its end. -/
inductive Ending where
  | raise (error : Literal)
  | apply (p : Projection)
  | give (l : Literal)

mutual
inductive Step where
  | call (c : Call) (given : Producer)
  /-- An exception raised between the calls. -/
  | raise (error : Literal)
  /-- Steps up to the first exception, which is dropped. -/
  | attempt (steps : List Step)
  | change (target : Literal) (c : Change Literal)
/-- What a step passes to its call. -/
inductive Producer where
  | absent
  /-- A value as it is; null counts as nothing. -/
  | value (l : Literal)
  /-- Steps as the chain of a group. -/
  | block (steps : List Step)
  /-- Code that carries out steps and then ends. -/
  | code (steps : List Step) (ending : Ending)
end

/-- Carries on with something that is made in memory. -/
def making {α : Type} (make : Making α) (next : α → Code) (rescue : Raised → Code) : Code :=
  .load fun m =>
    let (result, m) := make.run m
    .save m (.ofExcept result next rescue)

namespace Projection

def apply (subject : Value) : Projection → Making Value
  | .length => do return .int (← ofExcept ((← get).heap.length subject))
  | .item key => do
    let key ← key.make
    let m ← get
    let (heap, result) := m.heap.item subject key
    set { m with heap }
    ofExcept result
  | .attr name => do ofExcept ((← get).heap.attributeOf subject name)
  | .type => do return .cls ((← get).heap.typeOf subject)
  | .same => return subject

end Projection

/-- The code of an ending. -/
def Ending.code (subject : Value) : Ending → Code
  | .raise error => making error.make (Code.raiseValue · .fail) .fail
  | .apply p => making (p.apply subject) .give .fail
  | .give l => making l.make .give .fail

/-- Calls a value that is passed as code. What it is given is the subject for a `pick`, the clause
for a group, and nothing for all other calls. -/
def invoking (c : Call) (callee subject : Value) : Code :=
  let make : Making Value := do
    let args ← match c with
      | .pick => pure [subject]
      | .logic _ => do pure [← Making.alloc { cls := "Clause" }]
      | _ => pure []
    let m ← get
    let (heap, result) := m.heap.invoke callee args
    set { m with heap }
    ofExcept result
  making make .give .fail

/-- Applies a change. -/
def changing (target : Literal) (c : Change Literal) : Making Unit := do
  let target ← target.make
  let c ← c.traverse Literal.make
  let m ← get
  let heap ← ofExcept (m.heap.change target c)
  set { m with heap }

mutual
/-- The code of a step on a clause. -/
def Step.code (i : Nat) (next : Code) (rescue : Raised → Code) : Step → Code
  | .call c given =>
    given.prepare c (fun given block => .call i c given (block i) next rescue) rescue
  | .raise error => making error.make (Code.raiseValue · rescue) rescue
  | .attempt steps =>
    codeAll i next (fun r => if r.isInterrupt then rescue r else next) steps
  | .change target c => making (changing target c) (fun _ => next) rescue
/-- The code of steps, one after the other. -/
def codeAll (i : Nat) (next : Code) (rescue : Raised → Code) : List Step → Code
  | [] => next
  | s :: rest => s.code i (codeAll i next rescue rest) rescue
/-- Makes what is passed to a call; the block is told the clause it works on. -/
def Producer.prepare (c : Call) (use : Given → (Nat → Value → Code) → Code)
    (rescue : Raised → Code) : Producer → Code
  | .absent => use .absent fun _ _ => .give .null
  | .value l =>
    making l.make (fun v =>
      if Heap.isCallable v then use .code fun _ => invoking c v
      else if v == .null then use .absent fun _ _ => .give .null
      else .load fun m => use (.plain (m.heap.typeOf v)) fun _ _ => .give .null) rescue
  | .block steps => use .code fun i _ => codeAll i (.give .null) .fail steps
  | .code steps ending =>
    use .code fun i subject => codeAll i (ending.code subject) .fail steps
end

/-- The code of one step by itself. -/
def Step.toCode (i : Nat) (s : Step) : Code := s.code i (.give .null) .fail

/-- How a test begins. -/
inductive Opening where
  /-- With a subject: `that` or `err`. -/
  | call (c : Call) (given : Producer)
  /-- With nothing. -/
  | bare

/-- One statement of the body of a facet. -/
inductive Statement where
  | raise (error : Literal)
  /-- Registers a test and carries out steps on its clause. -/
  | start (how : Opening) (name : Option TestName) (steps : List Step) (attempt : Bool)
  /-- Carries out steps on a clause the body has started before. -/
  | on (index : Nat) (steps : List Step) (attempt : Bool)

namespace Statement

/-- The code of steps in a body; an attempt drops what they raise. -/
def stepsCode (i : Nat) (steps : List Step) (attempt : Bool) (next : Code) : Code :=
  codeAll i next (fun r => if attempt && !r.isInterrupt then next else .fail r) steps

/-- The code of a statement, given the clauses started so far. -/
def code (facet : Nat) (made : List Nat) (next : List Nat → Code) : Statement → Code
  | .raise error => making error.make (Code.raiseValue · .fail) .fail
  | .on index steps attempt =>
    match made[index]? with
    | some i => stepsCode i steps attempt (next made)
    | none => .raise (.indexError "list index out of range") .fail
  | .start how name steps attempt =>
    let go (i : Nat) : Code := stepsCode i steps attempt (next (made ++ [i]))
    match how with
    | .bare => .register facet name go .fail
    | .call c given =>
      given.prepare c (fun given block =>
        .register facet name (fun i => .call i c given (block i) (go i) .fail) .fail) .fail

/-- The code of a whole body. -/
def bodyCode (facet : Nat) : List Nat → List Statement → Code
  | _, [] => .give .null
  | made, s :: rest => s.code facet made (fun made => bodyCode facet made rest)

end Statement

end Assay.Script
