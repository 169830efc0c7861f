import Assay.Proofs.Clause.World

/-! # What calls do around the code they are given

A call hands its code a world and goes on from the one that the code leaves behind.  In between the
clause makes steps, one at a time, and nothing else changes but memory and the log: a relation that
these steps keep holds up to where the code begins and from where it has ended.  A call that runs no
code at all is refused for what is wrong with it, or issues an operator.
-/

namespace Assay

/-! ## Where calls run code -/

namespace World

/-- What a call hands to the code it is given: what the code is told, and the world it finds. -/
def handed? (w : World) (i : Nat) : Call → Option (Value × World)
  | .that | .err => some (.null, w)
  | .pick => (w.clause i).subject.map (·, w)
  | .check _ => if (w.clause i).subject.isNone then none else some (.null, w)
  | .logic op =>
    match (w.clause i).addOperator op with
    | .error _ => none
    | .ok step =>
      some (.null, (w.update i step).setClause i ((w.update i step).clause i).openGroup)

/-- How a group ends, given the clause around it and what its block leaves behind. -/
def endGroup (i : Nat) (owner : Operator) (outer : Clause) (o : Outcome Value) : Outcome Unit :=
  let inner := o.1.clause i
  let inner := { inner with depth := inner.depth - 1 }
  let w := o.1.setClause i inner
  match o.2 with
  | .error r => if r.leavesGroups then (w, .error r) else w.abort i (.logic owner) .logic r.address
  | .ok _ =>
    if inner.result.status = .notImplemented then w.misuse (.unresolvedGroup owner)
    else (w.update i (Clause.closeGroup outer inner), .ok ())

theorem group_code (w : World) (i : Nat) (owner : Operator) (block : Block) :
    w.group i owner (.code block) =
      endGroup i owner (w.clause i) (block .null (w.setClause i (w.clause i).openGroup)) := rfl

/-- A call with a group runs its block on the opened group and ends it as `endGroup` says. -/
theorem perform_group {w w₀ : World} {i : Nat} {op : Operator} {v : Value}
    (handed : w.handed? i (.logic op) = some (v, w₀)) (block : Block) :
    ∃ step, (w.clause i).addOperator op = .ok step ∧ w₀.clause i = step.1.openGroup ∧
      w.perform i (.logic op) (.code block) = endGroup i op step.1 (block v w₀) := by
  simp only [handed?] at handed
  split at handed
  · cases handed
  · rename_i step issued
    simp only [Option.some.injEq, Prod.mk.injEq] at handed
    have opened : (w.update i step).clause i = step.1 := by simp
    refine ⟨step, issued, by rw [← handed.2, clause_setClause_self, opened], ?_⟩
    simp only [perform, logic, issued, group_code, handed.2, ← handed.1]
    rw [opened]

/-- Only a group begins in a world of its own. -/
theorem handed_alone {w w₀ : World} {i : Nat} {call : Call} {v : Value}
    (handed : w.handed? i call = some (v, w₀)) (alone : ∀ op, call ≠ .logic op) : w₀ = w := by
  cases call with
  | logic op => exact absurd rfl (alone op)
  | that | err => exact (Prod.mk.inj (Option.some.inj handed)).2.symm
  | pick =>
      simp only [handed?, Option.map_eq_some_iff, Prod.mk.injEq] at handed
      obtain ⟨_, _, _, same⟩ := handed
      exact same.symm
  | check m =>
      simp only [handed?] at handed
      split at handed
      · cases handed
      · exact (Prod.mk.inj (Option.some.inj handed)).2.symm

theorem handed_of_ne {w w₀ : World} {i j : Nat} (apart : j ≠ i) {call : Call} {v : Value}
    (handed : w.handed? j call = some (v, w₀)) : w₀.clause i = w.clause i := by
  cases call with
  | logic op =>
      simp only [handed?] at handed
      split at handed
      · cases handed
      · rw [← (Prod.mk.inj (Option.some.inj handed)).2, clause_setClause_of_ne apart,
          clause_update_of_ne apart]
  | that | pick | err | check m => rw [handed_alone handed (by simp)]

end World

/-! ## Calls that run no code -/

/-- Whether a call works on a subject that must be there before. -/
def Call.needsSubject : Call → Bool
  | .pick | .check _ => true
  | .that | .err | .logic _ => false

/-- What is wrong with a call on a clause, as far as it shows before the call runs code. -/
inductive Clause.Refuses (c : Clause) : Call → Argument → Misuse → Prop where
  | noSubject {call arg} : call.needsSubject = true → c.subject = none →
      Refuses c call arg (.noSubject call.operation)
  | producer {call arg type} : (∀ op, call ≠ .logic op) →
      (call.needsSubject = true → c.subject ≠ none) → arg.block? = .error type →
      Refuses c call arg (.notCallable call.operation type)
  | operator {op arg i waiting} : op ≠ .not → c.waiting? = some (i, waiting) →
      Refuses c (.logic op) arg (.operatorAfter op waiting)
  | block {op type step} : c.addOperator op = .ok step →
      Refuses c (.logic op) (.plain type) (.notCallable (.logic op) type)

/-- An operator is refused only if it is binary and another one waits. -/
theorem Clause.addOperator_refused {c : Clause} {op : Operator} {m : Misuse} :
    c.addOperator op = .error m ↔
      ∃ i waiting, op ≠ .not ∧ c.waiting? = some (i, waiting) ∧ m = .operatorAfter op waiting := by
  constructor
  · intro refused
    unfold addOperator at refused
    split at refused
    · cases refused
    · cases refused
    · rename_i i waiting binary waits
      cases refused
      exact ⟨i, waiting, binary, waits, rfl⟩
    · cases refused
  · rintro ⟨i, waiting, binary, waits, rfl⟩
    cases op with
    | not => exact absurd rfl binary
    | and | or | xor => simp only [addOperator, waits]

namespace World

variable {w : World} {i : Nat} {call : Call} {arg : Argument} {m : Misuse}

/-- The world in which a call is refused: an operator has been issued if its block is at fault. -/
def refusing (w : World) (i : Nat) : Call → Argument → World
  | .logic op, .plain _ =>
    match (w.clause i).addOperator op with
    | .ok step => w.update i step
    | .error _ => w
  | _, _ => w

theorem refusing_of_not_logic (alone : ∀ op, call ≠ .logic op) : w.refusing i call arg = w := by
  cases call with
  | logic op => exact absurd rfl (alone op)
  | that | pick | err | check m => rfl

theorem refusing_of_refused {op : Operator} {m : Misuse}
    (refused : (w.clause i).addOperator op = .error m) : w.refusing i (.logic op) arg = w := by
  cases arg <;> simp only [refusing, refused]

/-- What is wrong with a call is what it is refused for. -/
theorem perform_of_refuses (refuses : (w.clause i).Refuses call arg m) :
    w.perform i call arg = (w.refusing i call arg).misuse m := by
  cases refuses with
  | noSubject needs absent =>
      cases call with
      | pick => simp [perform, pick, absent, refusing, Call.operation]
      | check k => simp [perform, absent, refusing, Call.operation]
      | that | err | logic op => cases needs
  | producer alone present given =>
      rw [refusing_of_not_logic alone]
      cases call with
      | that => simp [perform, produce, given, misuse, raiseOwn, Outcome.andThen, Call.operation]
      | err => simp [perform, catchError, given, Call.operation]
      | pick =>
          obtain ⟨v, there⟩ := Option.ne_none_iff_exists'.mp (present rfl)
          simp [perform, pick, there, produce, given, misuse, raiseOwn, Outcome.andThen,
            Call.operation]
      | check k =>
          obtain ⟨v, there⟩ := Option.ne_none_iff_exists'.mp (present rfl)
          simp [perform, there, produce, given, misuse, raiseOwn, Outcome.andThen, Call.operation]
      | logic op => exact absurd rfl (alone op)
  | operator binary waits =>
      have refused := Clause.addOperator_refused.mpr ⟨_, _, binary, waits, rfl⟩
      rw [refusing_of_refused refused]
      simp [perform, logic, refused]
  | block issued => simp [perform, logic, issued, group, Argument.block?, refusing]

/-- A call that runs no code is refused, or it issues an operator and does nothing else. -/
theorem unrun_cases (unrun : ∀ block, arg.block? = .ok block → w.handed? i call = none) :
    (∃ m, (w.clause i).Refuses call arg m) ∨
      ∃ op step, call = .logic op ∧ arg = .absent ∧ (w.clause i).addOperator op = .ok step := by
  have produced (alone : ∀ op, call ≠ .logic op)
      (begins : (call.needsSubject = true → (w.clause i).subject ≠ none) →
        ∃ begun, w.handed? i call = some begun) : ∃ m, (w.clause i).Refuses call arg m := by
    by_cases present : call.needsSubject = true → (w.clause i).subject ≠ none
    · cases given : arg.block? with
      | error type => exact ⟨_, .producer alone present given⟩
      | ok block =>
          obtain ⟨begun, handed⟩ := begins present
          cases (unrun block given).symm.trans handed
    · simp only [Classical.not_imp, Classical.not_not] at present
      exact ⟨_, .noSubject present.1 present.2⟩
  cases call with
  | that | err => exact .inl (produced (by simp) fun _ => ⟨_, rfl⟩)
  | pick =>
      refine .inl (produced (by simp) fun present => ?_)
      obtain ⟨v, there⟩ := Option.ne_none_iff_exists'.mp (present rfl)
      exact ⟨(v, w), by simp [handed?, there]⟩
  | check k =>
      refine .inl (produced (by simp) fun present => ?_)
      exact ⟨(.null, w), by simp [handed?, present rfl]⟩
  | logic op =>
      cases issued : (w.clause i).addOperator op with
      | error m =>
          obtain ⟨_, _, binary, waits, _⟩ := Clause.addOperator_refused.mp issued
          exact .inl ⟨_, .operator binary waits⟩
      | ok step =>
          cases arg with
          | absent => exact .inr ⟨op, step, rfl, rfl, issued⟩
          | plain type => exact .inl ⟨_, .block issued⟩
          | code block =>
              have handed := unrun block rfl
              simp [handed?, issued] at handed

theorem perform_operator {op : Operator} {step : Clause × List String}
    (issued : (w.clause i).addOperator op = .ok step) :
    w.perform i (.logic op) .absent = (w.update i step, .ok ()) := by
  simp only [perform, logic, issued]

end World

/-! ## Steps around code -/

namespace World

/-- What the steps keep that calls make around their code: memory and the log change as they will,
    clauses one step at a time. -/
structure Passage (R : World → World → Prop) : Prop where
  memory : ∀ w m log, R w { w with memory := m, log }
  trans : ∀ {a b c}, R a b → R b c → R a c
  issue : ∀ {w i op step}, (w.clause i).addOperator op = .ok step → R w (w.setClause i step.1)
  setSubject : ∀ w i (call : Call) captured v,
    R w (w.setClause i ((w.clause i).setSubject call.operation captured v))
  restoreTo : ∀ w i v, R w (w.setClause i { w.clause i with restore := some v })
  judge : ∀ w i m captured matched, R w (w.setClause i ((w.clause i).judge m captured matched).1)
  abort : ∀ w i (call : Call) role text captured,
    R w (w.setClause i ((w.clause i).abort call.operation role text captured))

namespace Passage

variable {R : World → World → Prop} {α : Type} {w w₀ : World} {i : Nat} {call : Call}
  {arg : Argument} {b : Block} {v : Value} (passage : Passage R)
include passage

theorem refl (w : World) : R w w := passage.memory w w.memory w.log

theorem debug (w : World) (texts : List String) : R w (w.debug texts) := by
  induction texts generalizing w with
  | nil => exact passage.refl w
  | cons text rest ih =>
      exact passage.trans (passage.memory w _ _) (ih (w.note .debug .clause text))

theorem update {step : Clause × List String} (set : R w (w.setClause i step.1)) :
    R w (w.update i step) :=
  passage.trans set (passage.debug _ _)

theorem capture (w : World) (i : Nat) (v : Value) : R w (w.capture i v).1 := by
  unfold World.capture
  split
  · exact passage.memory w _ _
  · exact passage.refl w

theorem andThen {β : Type} {o : Outcome α} {next : World → α → Outcome β} (first : R w o.1)
    (rest : ∀ w₁ x, R w₁ (next w₁ x).1) : R w (o.andThen next).1 := by
  obtain ⟨w₁, r | x⟩ := o
  · exact first
  · exact passage.trans first (rest w₁ x)

theorem aborts (w : World) (i : Nat) (call : Call) (role : Role) (a : Address) :
    R w (w.abort i call.operation role a : Outcome α).1 := by
  have captured := passage.capture w i (.ref a)
  unfold World.abort
  split
  · exact passage.memory w _ _
  · split <;> rename_i taken <;> rw [taken] at captured
    · exact passage.trans captured (passage.memory _ _ _)
    · exact passage.trans captured
        (passage.trans (passage.abort _ i call role _ _) (passage.memory _ _ _))

theorem setsSubject (w : World) (i : Nat) (call : Call) (v : Value) :
    R w (w.setSubject i call.operation v).1 := by
  have captured := passage.capture w i v
  unfold World.setSubject
  split <;> rename_i taken <;> rw [taken] at captured
  · exact passage.trans captured (passage.memory _ _ _)
  · exact passage.trans captured (passage.setSubject _ i call _ _)

theorem judges (w : World) (i : Nat) (m : Matcher) (x : Value) : R w (w.judge i m x).1 := by
  have captured := passage.capture w i x
  unfold World.judge
  split
  · exact passage.trans (passage.memory w _ _) (passage.aborts _ i (.check m) .matcher _)
  · split <;> rename_i taken <;> rw [taken] at captured
    · exact passage.trans captured (passage.memory _ _ _)
    · exact passage.trans captured (passage.update (passage.judge _ i m _ _))

/-- Code that a call runs finds what the call has led to: the same world, or one in which an
    operator has been issued and a group opened. -/
theorem handed (opened : ∀ w i, R w (w.setClause i (w.clause i).openGroup))
    (handed : w.handed? i call = some (v, w₀)) : R w w₀ := by
  cases call with
  | logic op =>
      simp only [handed?] at handed
      split at handed
      · cases handed
      · rename_i step issued
        rw [← (Prod.mk.inj (Option.some.inj handed)).2]
        exact passage.trans (passage.update (passage.issue issued)) (opened _ i)
  | that | pick | err | check m => exact handed_alone handed (by simp) ▸ passage.refl w

/-! ### From the end of the code on -/

theorem produced (given : arg.block? = .ok b) (w : World) (i : Nat) (call : Call) (role : Role)
    (v : Value) : R (b v w).1 (w.produce i call.operation role arg v).1 := by
  simp only [World.produce, given]
  split <;> rename_i left <;> rw [left]
  · exact passage.refl _
  · split
    · exact passage.refl _
    · exact passage.aborts _ i call role _

theorem caught (given : arg.block? = .ok b) (w : World) (i : Nat) :
    R (b .null w).1 (w.catchError i arg).1 := by
  simp only [World.catchError, given]
  split <;> rename_i left <;> rw [left]
  · exact passage.setsSubject _ i .err _
  · split
    · exact passage.refl _
    · split
      · exact passage.memory _ _ _
      · exact passage.trans (passage.debug _ _) (passage.setsSubject _ i .err _)

/-- When the code it was given has ended, a call makes steps, unless it has opened a group. -/
theorem called (given : arg.block? = .ok b) (handed : w.handed? i call = some (v, w₀))
    (alone : ∀ op, call ≠ .logic op) : R (b v w₀).1 (w.perform i call arg).1 := by
  cases call with
  | that =>
      cases handed
      exact passage.andThen (passage.produced given w i .that _ _) fun w₁ x =>
        passage.setsSubject w₁ i .that x
  | err =>
      cases handed
      exact passage.caught given w i
  | pick =>
      simp only [handed?, Option.map_eq_some_iff, Prod.mk.injEq] at handed
      obtain ⟨_, present, rfl, rfl⟩ := handed
      simp only [World.perform, World.pick, present]
      exact passage.andThen (passage.produced given w i .pick _ _) fun w₁ x =>
        passage.andThen (passage.setsSubject w₁ i .pick x) fun w₂ _ => passage.restoreTo w₂ i _
  | check m =>
      simp only [handed?] at handed
      split at handed
      · cases handed
      · rename_i present
        cases handed
        simp only [World.perform, if_neg present]
        exact passage.andThen (passage.produced given w i (.check m) _ _) fun w₁ x =>
          passage.judges w₁ i m x
  | logic op => exact absurd rfl (alone op)

/-- A group ends in that its block is left, after which what it has raised may be recorded, or in
    that it is closed. -/
theorem endsGroup {owner : Operator} {outer : Clause} {o : Outcome Value}
    (left : R w (o.1.setClause i { o.1.clause i with depth := (o.1.clause i).depth - 1 }))
    (closed : (o.1.clause i).result.status ≠ .notImplemented → R w (o.1.setClause i
      (Clause.closeGroup outer { o.1.clause i with depth := (o.1.clause i).depth - 1 }).1)) :
    R w (endGroup i owner outer o).1 := by
  unfold endGroup
  dsimp only
  split
  · split
    · exact left
    · exact passage.trans left (passage.aborts _ i (.logic owner) _ _)
  · split
    · exact passage.trans left (passage.memory _ _ _)
    · rename_i resolved
      rw [World.update, setClause_setClause]
      exact passage.trans (closed resolved) (passage.debug _ _)

/-- A call that runs no code issues an operator, if it does anything to its clause. -/
theorem unrun (unrun : ∀ block, arg.block? = .ok block → w.handed? i call = none) :
    R w (w.perform i call arg).1 := by
  rcases unrun_cases unrun with ⟨m, refuses⟩ | ⟨op, step, rfl, rfl, issued⟩
  · rw [perform_of_refuses refuses]
    have refusing : R w (w.refusing i call arg) := by
      unfold World.refusing
      split
      · split
        · exact passage.update (passage.issue ‹_›)
        · exact passage.refl w
      · exact passage.refl w
    exact passage.trans refusing (passage.memory _ _ _)
  · rw [perform_operator issued]
    exact passage.update (passage.issue issued)

end Passage

end World

end Assay
