import Assay.Clause.World

/-! # Test code

Code that makes use of clauses is a tree: it reads and writes memory, calls clauses, registers
tests, and goes on in one way where a call returns and in another where it raises. The code that
a call runs is a tree of its own inside it, so running code is recursion on the tree.
-/

namespace Assay

/-- What code passes to a call. -/
inductive Given where
  | absent
  | plain (type : ClassName)
  | code
  deriving DecidableEq, Repr

inductive Code where
  | give (v : Value)
  | fail (r : Raised)
  | load (next : Memory → Code)
  | save (m : Memory) (next : Code)
  /-- Calls a clause. The block is what the call runs, if code is given. -/
  | call (clause : Nat) (c : Call) (given : Given) (block : Value → Code) (next : Code)
      (rescue : Raised → Code)
  /-- Registers a test with a facet; what follows is told the number of its clause. -/
  | register (facet : Nat) (name : Option TestName) (next : Nat → Code) (rescue : Raised → Code)

/-- What a call is passed, given how code runs. -/
def Given.argument (block : Block) : Given → Argument
  | .absent => .absent
  | .plain type => .plain type
  | .code => .code block

namespace Code

/-- Runs code. -/
def run : Code → World → Outcome Value
  | .give v, w => (w, .ok v)
  | .fail r, w => (w, .error r)
  | .load next, w => (next w.memory).run w
  | .save m next, w => next.run { w with memory := m }
  | .call i c given block next rescue, w =>
    match w.perform i c (given.argument fun subject => (block subject).run) with
    | (w, .ok _) => next.run w
    | (w, .error r) => (rescue r).run w
  | .register facet name next rescue, w =>
    match w.register facet name with
    | (w, .ok i) => (next i).run w
    | (w, .error r) => (rescue r).run w

/-- Raises a fault. -/
def raise (f : Fault) (rescue : Raised → Code) : Code :=
  .load fun m =>
    let (heap, a) := m.heap.raise f
    .save { m with heap } (rescue (.error a))

/-- Goes on with a result. -/
def ofExcept {α : Type} (result : Except Fault α) (next : α → Code) (rescue : Raised → Code) :
    Code :=
  match result with
  | .ok x => next x
  | .error f => raise f rescue

/-- Raises a value, which must be an exception. -/
def raiseValue (v : Value) (rescue : Raised → Code) : Code :=
  .load fun m =>
    match v with
    | .ref a =>
      if m.heap.isError v then
        rescue (if m.heap.isInterrupt a then .interrupt a else .error a)
      else raise (.typeError "exceptions must derive from BaseException") rescue
    | _ => raise (.typeError "exceptions must derive from BaseException") rescue

end Code

end Assay
