import Assay.Proofs.Clause.Course

/-! # Aborts on record

What user code raises inside a call is put on record before the call raises in turn: the last record
of the clause names the call, and class and text of what was raised.  A group lets an abort pass that
comes out of its block, so that it is on record with the clause of the group if it comes straight
from a call on that clause; and it is on no record there if it comes from anywhere else.
-/

namespace Assay

namespace Clause

/-- The trace ends with the record of an exception, and the clause amounts to one. -/
structure Recorded (c : Clause) (o : Operation) (text : String) : Prop where
  status : c.result.status = .exception
  last : ∃ before r, c.result.trace = before ++ [r] ∧ r.operation = o ∧ r.status = .exception ∧
    r.errorText = some text

theorem recorded_abort (c : Clause) (o : Operation) (role : Role) (text : String)
    (captured : Option Snapshot) : (c.abort o role text captured).Recorded o text :=
  ⟨rfl, _, _, rfl, rfl, rfl, rfl⟩

end Clause

namespace World

variable {α β : Type} {w w' : World} {i : Nat}

/-- What is raised can be put on record: its text can be told, and a snapshot can be taken of it
    where any are taken. -/
structure Recordable (w : World) (i : Nat) (a : Address) : Prop where
  told : ∃ text, w.heap.errorText (.ref a) = .ok text
  taken : ∃ s, (w.clause i).picture w.heap (.ref a) = .ok s

/-- If it is an abort that is raised, the clause has it on record, with class and text of its
    cause. -/
def OnRecord (w : World) (i : Nat) : Raised → Prop
  | .aborted _ o cause text =>
    (w.clause i).Recorded o text ∧ ∃ shown : String, text = s!"{cause}: {shown}"
  | _ => True

/-- Everything that comes out is on record. -/
def RaisesOnRecord (i : Nat) (out : Outcome α) : Prop :=
  ∀ r, out.2 = .error r → out.1.OnRecord i r

/-! ## The steps of a call -/

/-- What can be put on record is put on record, and an abort is raised. -/
theorem abort_recordable {a : Address} (recordable : w.Recordable i a) (o : Operation)
    (role : Role) : ∃ w' x text, (w.abort i o role a : Outcome α) =
      (w', .error (.aborted x o (w.heap.object a).cls text)) ∧ (w'.clause i).Recorded o text ∧
      ∃ shown : String, text = s!"{(w.heap.object a).cls}: {shown}" := by
  obtain ⟨⟨text, told⟩, s, taken⟩ := recordable
  refine ⟨_, _, text, abort_captured told taken o role, ?_, ?_⟩
  · have own : (((w.remembering i (.ref a)).setClause i ((w.clause i).abort o role text s)).clause
        i).Recorded o text := by
      rw [clause_setClause_self]
      exact Clause.recorded_abort _ _ _ _ _
    exact own
  · unfold Heap.errorText at told
    cases shown : w.heap.display (.ref a) with
    | error f => simp [shown, Except.map] at told
    | ok shown' =>
        simp only [shown, Except.map, Except.ok.injEq] at told
        exact ⟨shown', told.symm⟩

/-- What cannot be put on record is followed by an exception that no clause has raised. -/
theorem abort_unrecordable {a : Address} (unrecordable : ¬ w.Recordable i a) (o : Operation)
    (role : Role) : ∃ x, (w.abort i o role a : Outcome α).2 = .error (.error x) := by
  unfold World.abort
  cases told : w.heap.errorText (.ref a) with
  | error f => exact ⟨_, rfl⟩
  | ok text =>
      cases taken : (w.clause i).picture w.heap (.ref a) with
      | error f =>
          simp only [capture_eq, taken]
          exact ⟨_, rfl⟩
      | ok s => exact absurd ⟨⟨text, told⟩, s, taken⟩ unrecordable

theorem onRecord_abort (a : Address) (o : Operation) (role : Role) :
    RaisesOnRecord i (w.abort i o role a : Outcome α) := by
  intro r raised
  by_cases recordable : w.Recordable i a
  · obtain ⟨w', x, text, ended, recorded⟩ := abort_recordable (α := α) recordable o role
    rw [ended] at raised ⊢
    cases raised
    exact recorded
  · obtain ⟨x, ended⟩ := abort_unrecordable (α := α) recordable o role
    cases ended.symm.trans raised
    trivial

theorem onRecord_raise (w : World) (i : Nat) (f : Fault) :
    RaisesOnRecord i (w.raise f : Outcome α) := by
  intro r raised
  cases raised
  trivial

theorem onRecord_misuse (w : World) (i : Nat) (m : Misuse) :
    RaisesOnRecord i (w.misuse m : Outcome α) := by
  intro r raised
  cases raised
  trivial

theorem onRecord_ok (w : World) (i : Nat) (x : α) : RaisesOnRecord i (w, .ok x) := by
  intro r raised
  cases raised

theorem RaisesOnRecord.andThen {o : Outcome α} {next : World → α → Outcome β}
    (first : RaisesOnRecord i o) (rest : ∀ w x, RaisesOnRecord i (next w x)) :
    RaisesOnRecord i (o.andThen next) := by
  obtain ⟨w, result⟩ := o
  cases result with
  | error r =>
      intro r' raised
      cases raised
      exact first r rfl
  | ok x => exact rest w x

/-- Producers can raise what they like: it is put on record. -/
theorem onRecord_produce (w : World) (i : Nat) (o : Operation) (role : Role) (arg : Argument)
    (subject : Value) : RaisesOnRecord i (w.produce i o role arg subject) := by
  unfold produce
  split
  · exact onRecord_misuse _ _ _
  · split
    · exact onRecord_ok _ _ _
    · rename_i w₁ r _
      split
      · rename_i interrupt
        intro r' raised
        cases raised
        cases r <;> simp [Raised.isInterrupt] at interrupt
        trivial
      · exact onRecord_abort _ _ _

theorem onRecord_setSubject (w : World) (i : Nat) (o : Operation) (v : Value) :
    RaisesOnRecord i (w.setSubject i o v) := by
  unfold World.setSubject
  split
  · exact onRecord_raise _ _ _
  · exact onRecord_ok _ _ _

theorem onRecord_judge (w : World) (i : Nat) (m : Matcher) (expected : Value) :
    RaisesOnRecord i (w.judge i m expected) := by
  unfold World.judge
  split
  · exact onRecord_abort _ _ _
  · split
    · exact onRecord_raise _ _ _
    · exact onRecord_ok _ _ _

theorem onRecord_pick (w : World) (i : Nat) (arg : Argument) :
    RaisesOnRecord i (w.pick i arg) := by
  unfold World.pick
  split
  · exact onRecord_misuse _ _ _
  · exact (onRecord_produce _ _ _ _ _ _).andThen fun w₁ v =>
      (onRecord_setSubject w₁ i .pick v).andThen fun w₂ _ => onRecord_ok _ _ _

/-- What code of `err` raises is caught. -/
theorem onRecord_catchError (w : World) (i : Nat) (arg : Argument) :
    RaisesOnRecord i (w.catchError i arg) := by
  unfold World.catchError
  split
  · exact onRecord_misuse _ _ _
  · split
    · exact onRecord_setSubject _ _ _ _
    · rename_i w₁ r _
      split
      · rename_i interrupt
        intro r' raised
        cases raised
        cases r <;> simp [Raised.isInterrupt] at interrupt
        trivial
      · split
        · exact onRecord_raise _ _ _
        · exact onRecord_setSubject _ _ _ _

/-- A group lets pass what is on record, and puts on record what is not. -/
theorem onRecord_endGroup {owner : Operator} {outer : Clause} {out : Outcome Value}
    (inside : RaisesOnRecord i out) : RaisesOnRecord i (endGroup i owner outer out) := by
  obtain ⟨w, result⟩ := out
  unfold endGroup
  dsimp only
  split
  · rename_i r
    split
    · intro r' raised
      cases raised
      have recorded := inside r rfl
      cases r with
      | aborted a o cause text =>
          obtain ⟨⟨status, last⟩, shown⟩ := recorded
          refine ⟨?_, shown⟩
          rw [clause_setClause_self]
          exact ⟨status, last⟩
      | _ => trivial
    · exact onRecord_abort _ _ _
  · split
    · exact onRecord_misuse _ _ _
    · exact onRecord_ok _ _ _

/-- What a call raises is on record, if the block of a group raises nothing else. -/
theorem onRecord_perform {c : Call} {arg : Argument}
    (inside : ∀ op block, c = .logic op → arg = .code block → ∀ v w, RaisesOnRecord i (block v w)) :
    RaisesOnRecord i (w.perform i c arg) := by
  cases c with
  | that =>
      exact (onRecord_produce _ _ _ _ _ _).andThen fun w₁ v => onRecord_setSubject w₁ i .that v
  | pick => exact onRecord_pick w i arg
  | err => exact onRecord_catchError w i arg
  | check m =>
      simp only [perform]
      split
      · exact onRecord_misuse _ _ _
      · exact (onRecord_produce _ _ _ _ _ _).andThen fun w₁ v => onRecord_judge w₁ i m v
  | logic op =>
      simp only [perform, logic]
      split
      · exact onRecord_misuse _ _ _
      · cases arg with
        | absent => exact onRecord_ok _ _ _
        | plain type => exact onRecord_misuse _ _ _
        | code block =>
            simp only [group_code]
            exact onRecord_endGroup (inside op block rfl rfl _ _)

end World

/-! ## Code that passes aborts on -/

namespace Code

/-- An abort that comes out of the code comes straight from a call on the clause: nothing else is
    done once the call has raised it, and code does not raise aborts of its own. -/
def Straight (i : Nat) : Code → Prop
  | .give _ => True
  | .fail r => ∀ a o cause text, r ≠ .aborted a o cause text
  | .load next => ∀ m, (next m).Straight i
  | .save _ next => next.Straight i
  | .call j c _ block next rescue =>
    next.Straight i ∧ ∀ r, (rescue r).Straight i ∨
      rescue r = .fail r ∧ j = i ∧ ∀ op, c = .logic op → ∀ v, (block v).Straight i
  | .register _ _ next rescue => (∀ j, (next j).Straight i) ∧ ∀ r, (rescue r).Straight i

open World

variable {i : Nat}

theorem onRecord_argument {given : Given} {block : Value → Code} {c : Call}
    (runs : ∀ op, c = .logic op → ∀ v w, RaisesOnRecord i ((block v).run w)) (op : Operator)
    (b : Block) (logic : c = .logic op)
    (passed : given.argument (fun v => (block v).run) = .code b) (v : Value) (w : World) :
    RaisesOnRecord i (b v w) := by
  cases given <;> simp only [Given.argument, Argument.code.injEq, reduceCtorEq] at passed
  subst passed
  exact runs op logic v w

/-- Every abort that comes out of such code is on record. -/
theorem Straight.onRecord {code : Code} (straight : code.Straight i) (w : World) :
    RaisesOnRecord i (code.run w) := by
  induction code generalizing w with
  | give v => exact onRecord_ok _ _ _
  | fail r =>
      intro r' raised
      cases raised
      cases r with
      | aborted a o cause text => exact absurd rfl (straight a o cause text)
      | _ => trivial
  | load next ih => exact ih w.memory (straight w.memory) w
  | save m next ih => exact ih straight _
  | call j c given block next rescue ihBlock ihNext ihRescue =>
      simp only [run]
      split
      · exact ihNext straight.1 _
      · rename_i w₁ r called
        rcases straight.2 r with handled | ⟨passed, rfl, inside⟩
        · exact ihRescue r handled _
        · have recorded : RaisesOnRecord j (w₁, Except.error (α := Unit) r) := called ▸
            onRecord_perform (onRecord_argument fun op logic v w => ihBlock v (inside op logic v) w)
          rw [passed]
          intro r' raised
          cases raised
          exact recorded r rfl
  | register facet name next rescue ihNext ihRescue =>
      simp only [run]
      split
      · exact ihNext _ (straight.1 _) _
      · exact ihRescue _ (straight.2 _) _

end Code

/-! ## Calls that are aborted -/

/-- Whatever runs inside a call that is aborted, on whatever clauses: the trace of its own clause
    ends with the record of the exception, which names the call and its cause, provided that an abort
    comes out of the block of a group only straight from a call on the clause. -/
theorem abort_on_record {w w' : World} {i : Nat} {c : Call} {given : Given} {block : Value → Code}
    {a : Address} {o : Operation} {cause : ClassName} {text : String}
    (straight : ∀ op, c = .logic op → ∀ v, (block v).Straight i)
    (aborted : w.perform i c (given.argument fun v => (block v).run) =
      (w', .error (.aborted a o cause text))) :
    (w'.clause i).result.status = .exception ∧ (∃ before r,
      (w'.clause i).result.trace = before ++ [r] ∧ r.operation = o ∧ r.status = .exception ∧
        r.errorText = some text) ∧ ∃ shown : String, text = s!"{cause}: {shown}" := by
  have recorded : World.RaisesOnRecord i (w', Except.error (α := Unit) (.aborted a o cause text)) :=
    aborted ▸ World.onRecord_perform
      (Code.onRecord_argument fun op logic v w => (straight op logic v).onRecord w)
  obtain ⟨⟨status, last⟩, shown⟩ := recorded _ rfl
  exact ⟨status, last, shown⟩

/-- An exception in a group in a group is on record when it has left both. -/
theorem abort_on_record_nested :
    let code : Value → Code := fun _ => Code.raise (.typeError "x") .fail
    let block : Value → Code := fun _ =>
      .call 0 (.logic .not) .code (fun _ => Code.calls 0 [(.that, .code, code)]) (.give .null) .fail
    (∀ op, Call.logic .and = .logic op → ∀ v, (block v).Straight 0) ∧
    ∃ w' a, World.start.perform 0 (.logic .and) (Given.code.argument fun v => (block v).run) =
      (w', .error (.aborted a .that "TypeError" "TypeError: x")) ∧
    (w'.clause 0).result.status = .exception := by
  intro code block
  have straight : ∀ op, Call.logic .and = .logic op → ∀ v, (block v).Straight 0 := by
    intro op _ v
    refine ⟨trivial, fun r => .inr ⟨rfl, rfl, ?_⟩⟩
    intro _ _ _
    exact ⟨trivial, fun r => .inr ⟨rfl, rfl, fun _ logic => nomatch logic⟩⟩
  have aborted : World.start.perform 0 (.logic .and) (Given.code.argument fun v => (block v).run) =
      (_, .error (.aborted _ .that "TypeError" "TypeError: x")) := rfl
  exact ⟨straight, _, _, aborted, (abort_on_record straight aborted).1⟩

/-- It is not true of all code: a group lets an abort of another clause pass, and has nothing of it
    on record. -/
theorem foreign_abort_leaves_no_record :
    ¬ ∀ (w w' : World) (i : Nat) (c : Call) (given : Given) (block : Value → Code) (a : Address)
      (o : Operation) (cause : ClassName) (text : String),
      w.perform i c (given.argument fun v => (block v).run) =
        (w', .error (.aborted a o cause text)) →
      (w'.clause i).result.status = .exception ∧ ∃ before r,
        (w'.clause i).result.trace = before ++ [r] ∧ r.operation = o ∧ r.status = .exception ∧
          r.errorText = some text := by
  intro claim
  let block : Value → Code := fun _ => Code.calls 1
    [(.that, .code, fun _ => Code.raise (.typeError "x") .fail)]
  have recorded := claim World.start _ 0 (.logic .and) .code block _ .that "TypeError"
    "TypeError: x" rfl
  exact absurd recorded.1 (by decide +kernel)

end Assay
