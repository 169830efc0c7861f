import Assay.Proofs.Clause.Picking

/-! # Calls that are refused

What is wrong with a call may show before it runs any code: there is no subject, what it is given
cannot be called, or its operator cannot follow the one that waits.  Such a call leaves everything
as it was, down to the exception that says so.  Only the block of an operator is looked at too late:
when it cannot be called, the operator has been issued and goes on waiting.
-/

namespace Assay

namespace World

variable {w w' : World} {i : Nat} {call : Call} {arg : Argument} {m : Misuse}

/-- A call that is refused without any code being run is refused for what is wrong with it. -/
theorem misused_unrun {x : Address}
    (unrun : ∀ block, arg.block? = .ok block → w.handed? i call = none)
    (refused : w.perform i call arg = (w', .error (.misused x m))) :
    (w.clause i).Refuses call arg m ∧ w' = (w.refusing i call arg).setHeap w'.heap := by
  rcases unrun_cases unrun with ⟨m', refuses⟩ | ⟨op, step, rfl, rfl, issued⟩
  · rw [perform_of_refuses refuses] at refused
    cases refused
    exact ⟨refuses, rfl⟩
  · rw [perform_operator issued] at refused
    cases refused

end World

namespace Clause.Refuses

variable {w : World} {i : Nat} {call : Call} {arg : Argument} {m : Misuse}

/-- Nothing has been done for a call that is refused, unless a block is at fault. -/
theorem refusing_eq (refuses : (w.clause i).Refuses call arg m)
    (other : ∀ op type, m ≠ .notCallable (.logic op) type) : w.refusing i call arg = w := by
  cases refuses with
  | noSubject needs =>
      exact World.refusing_of_not_logic fun op same => by
        subst same
        cases needs
  | producer alone => exact World.refusing_of_not_logic alone
  | operator binary waits =>
      exact World.refusing_of_refused (addOperator_refused.mpr ⟨_, _, binary, waits, rfl⟩)
  | block => exact absurd rfl (other _ _)

theorem of_block {op : Operator} {type : ClassName}
    (refuses : (w.clause i).Refuses call arg (.notCallable (.logic op) type)) :
    ∃ step, call = .logic op ∧ (w.clause i).addOperator op = .ok step ∧
      w.refusing i call arg = w.update i step := by
  generalize said : Misuse.notCallable (.logic op) type = m at refuses
  cases refuses with
  | noSubject | operator => cases said
  | @producer call _ _ alone =>
      cases call with
      | logic op => exact absurd rfl (alone op)
      | that | pick | err => cases said
      | check k => cases k <;> cases said
  | block issued =>
      cases said
      exact ⟨_, rfl, issued, by simp only [World.refusing, issued]⟩

end Clause.Refuses

/-- An operator that is issued is on record. -/
theorem Clause.addOperator_ne {c : Clause} {op : Operator} {step : Clause × List String}
    (issued : c.addOperator op = .ok step) : step.1 ≠ c := by
  intro same
  obtain ⟨_, entries⟩ := c.entries_issued issued
  have length := congrArg List.length entries
  rw [same, List.length_append] at length
  simp at length

/-- A call that is refused before it runs any code leaves the world as it was, with all that its
    clauses have, but for the exception on the heap.  The only calls for which this fails are those
    of an operator with a block that cannot be called, which have issued the operator. -/
theorem refused_call_keeps_world {w w' : World} {i : Nat} {call : Call} {arg : Argument}
    {m : Misuse} {x : Address}
    (unrun : ∀ block, arg.block? = .ok block → w.handed? i call = none)
    (refused : w.perform i call arg = (w', .error (.misused x m))) :
    (w.clause i).Refuses call arg m ∧
      (w'.clause i = w.clause i ↔ ∀ op type, m ≠ .notCallable (.logic op) type) ∧
      ((∀ op type, m ≠ .notCallable (.logic op) type) → w' = w.setHeap w'.heap) ∧
      ∀ op type, m = .notCallable (.logic op) type → ∃ step, call = .logic op ∧
        (w.clause i).addOperator op = .ok step ∧ w' = (w.update i step).setHeap w'.heap := by
  obtain ⟨refuses, left⟩ := World.misused_unrun unrun refused
  refine ⟨refuses, ?_⟩
  by_cases stray : ∃ op type, m = .notCallable (.logic op) type
  · obtain ⟨op, type, rfl⟩ := stray
    obtain ⟨step, rfl, issued, refusing⟩ := refuses.of_block
    rw [refusing] at left
    have changed : w'.clause i = step.1 := by
      rw [left, World.clause_setHeap, World.clause_update_self]
    refine ⟨iff_of_false ?_ (by simp), by simp, ?_⟩
    · rw [changed]
      exact Clause.addOperator_ne issued
    · rintro _ _ ⟨rfl, rfl⟩
      exact ⟨step, rfl, issued, left⟩
  · have other (op : Operator) (type : ClassName) : m ≠ .notCallable (.logic op) type :=
      fun same => stray ⟨op, type, same⟩
    rw [refuses.refusing_eq other] at left
    refine ⟨iff_of_true ?_ other, fun _ => left, fun op type same => absurd same (other op type)⟩
    rw [left, World.clause_setHeap]

/-- `or` after an `and` that waits is refused, and the `and` goes on waiting. -/
theorem refused_call_keeps_world_waiting :
    let code := Code.calls 0 [(.that, .code, fun _ => .give (.int 1)),
      (.check .is, .code, fun _ => .give (.int 1)), (.logic .and, .absent, fun _ => .give .null)]
    let w := (code.run World.start).1
    let w' := (w.perform 0 (.logic .or) .absent).1
    w.perform 0 (.logic .or) .absent =
        (w', .error (.misused (w.heap.objects.size + 1) (.operatorAfter .or .and))) ∧
      w' = w.setHeap w'.heap ∧ w'.clause 0 = w.clause 0 := by
  intro code w w'
  have refused : w.perform 0 (.logic .or) .absent =
      (w', .error (.misused (w.heap.objects.size + 1) (.operatorAfter .or .and))) := rfl
  obtain ⟨_, kept, whole, _⟩ := refused_call_keeps_world (by simp [Argument.block?]) refused
  exact ⟨refused, whole (by simp), kept.mpr (by simp)⟩

/-- It is not true that calls which are refused before they run code leave their clause as it
    was. -/
theorem stray_block_issues_operator : ¬ ∀ (code : Code) (i : Nat) (call : Call) (arg : Argument)
    (m : Misuse) (x : Address) (w' : World), let w := (code.run World.start).1
    (∀ block, arg.block? = .ok block → w.handed? i call = none) →
    w.perform i call arg = (w', .error (.misused x m)) → w'.clause i = w.clause i := by
  intro claim
  let code := Code.calls 0 [(.that, .code, fun _ => .give (.int 1)),
    (.check .is, .code, fun _ => .give (.int 1))]
  let w := (code.run World.start).1
  have kept := claim code 0 (.logic .and) (.plain "int") (.notCallable (.logic .and) "int")
    (w.heap.objects.size + 1) _ (by simp [Argument.block?]) rfl
  have status := congrArg (·.result.status) kept
  exact absurd status (by decide +kernel)

end Assay
