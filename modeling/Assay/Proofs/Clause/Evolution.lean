import Assay.Proofs.Clause.Passage

/-! # How a clause changes while code runs

Code can call a clause at any time, also from inside a call on the same clause.  Whatever it does,
the clause changes only by the steps that lie between the runs of code, so a relation that these
steps keep holds between the states of the clause before and after any run.

`Code.Visits` is the relation between a program and the worlds it comes by, those inside the code
that its calls are given included.
-/

namespace Assay

/-- What the steps of a clause keep that lie within no group or open none. -/
structure Steps (R : Clause → Clause → Prop) : Prop where
  refl : ∀ c, R c c
  trans : ∀ {a b c}, R a b → R b c → R a c
  issue : ∀ {c : Clause} {op step}, c.addOperator op = .ok step → R c step.1
  setSubject : ∀ (c : Clause) (call : Call) captured v, R c (c.setSubject call.operation captured v)
  restoreTo : ∀ (c : Clause) v, R c { c with restore := some v }
  judge : ∀ (c : Clause) m captured matched, R c (c.judge m captured matched).1
  abort : ∀ (c : Clause) (call : Call) role text captured,
    R c (c.abort call.operation role text captured)

/-- What all steps of a clause keep.  The two ways out of a group start from a state that its
    block has led to from the opened group. -/
structure Evolution (R : Clause → Clause → Prop) : Prop extends Steps R where
  leaveGroup : ∀ {outer inner : Clause}, R outer.openGroup inner →
    R outer { inner with depth := inner.depth - 1 }
  closeGroup : ∀ {outer inner : Clause}, R outer.openGroup inner →
    inner.result.status ≠ .notImplemented →
    R outer (Clause.closeGroup outer { inner with depth := inner.depth - 1 }).1

namespace World

/-! ## From the steps of a clause to the steps of the world -/

variable {R : Clause → Clause → Prop}

/-- The clause of a number has changed as the relation allows. -/
abbrev Evolves (R : Clause → Clause → Prop) (i : Nat) (w w' : World) : Prop :=
  R (w.clause i) (w'.clause i)

/-- A step on one clause is a step of that clause, and none of any other. -/
theorem Evolves.setClause (ev : Steps R) {i j : Nat} {w : World} {c : Clause}
    (step : R (w.clause j) c) : Evolves R i w (w.setClause j c) := by
  by_cases same : j = i
  · subst same
    simpa [Evolves] using step
  · simpa [Evolves, clause_setClause_of_ne same] using ev.refl _

end World

open World

variable {R : Clause → Clause → Prop}

/-- What the steps of a clause keep is kept by what calls do around their code. -/
theorem Steps.passage (ev : Steps R) (i : Nat) : Passage (Evolves R i) where
  memory _ _ _ := ev.refl _
  trans := ev.trans
  issue issued := .setClause ev (ev.issue issued)
  setSubject _ _ call captured v := .setClause ev (ev.setSubject _ call captured v)
  restoreTo _ _ v := .setClause ev (ev.restoreTo _ v)
  judge _ _ m captured matched := .setClause ev (ev.judge _ m captured matched)
  abort _ _ call role text captured := .setClause ev (ev.abort _ call role text captured)

namespace World

/-! ## Calls and programs -/

/-- Every run of the code that is passed changes the clause as the relation allows. -/
def ArgumentEvolves (R : Clause → Clause → Prop) (i : Nat) (arg : Argument) : Prop :=
  ∀ block, arg.block? = .ok block → ∀ v w, Evolves R i w (block v w).1

theorem ArgumentEvolves.given {i : Nat} {block : Block}
    (runs : ∀ v w, Evolves R i w (block v w).1) (given : Given) :
    ArgumentEvolves R i (given.argument block) := by
  intro b passed
  cases given <;> simp only [Given.argument, Argument.block?, Except.ok.injEq,
    reduceCtorEq] at passed
  exact passed ▸ runs

/-- A group of another clause leaves the clause to what its block does. -/
theorem evolves_elsewhere (ev : Steps R) {i j : Nat} (apart : j ≠ i) {op : Operator} {v : Value}
    {b : Block} {w w₀ : World} (handed : w.handed? j (.logic op) = some (v, w₀))
    (ran : Evolves R i w₀ (b v w₀).1) :
    Evolves R i w (w.perform j (.logic op) (.code b)).1 := by
  obtain ⟨step, _, _, same⟩ := perform_group handed b
  rw [Evolves, handed_of_ne apart handed] at ran
  rw [same]
  refine (ev.passage i).endsGroup ?_ fun _ => ?_ <;>
    simpa [Evolves, clause_setClause_of_ne apart] using ran

theorem evolves_perform (ev : Evolution R) {i : Nat} {arg : Argument}
    (runs : ArgumentEvolves R i arg) (w : World) (j : Nat) (call : Call) :
    Evolves R i w (w.perform j call arg).1 := by
  have passage := ev.passage i
  cases given : arg.block? with
  | error type => exact passage.unrun (by simp [given])
  | ok block =>
      cases handed : w.handed? j call with
      | none => exact passage.unrun fun _ _ => handed
      | some begun =>
          obtain ⟨v, w₀⟩ := begun
          have ran := runs block given v w₀
          cases call with
          | logic op =>
              cases arg with
              | absent | plain type => cases given
              | code b =>
                  cases given
                  by_cases here : j = i
                  · subst here
                    obtain ⟨step, issued, opened, same⟩ := perform_group handed block
                    rw [Evolves, opened] at ran
                    rw [same]
                    refine passage.endsGroup ?_ fun resolved => ?_
                    · simpa [Evolves] using ev.trans (ev.issue issued) (ev.leaveGroup ran)
                    · simpa [Evolves] using ev.trans (ev.issue issued) (ev.closeGroup ran resolved)
                  · exact evolves_elsewhere ev.toSteps here handed ran
          | that | pick | err | check m =>
              have same := handed_alone handed (by simp)
              exact ev.trans (same ▸ ran) (passage.called given handed (by simp))

end World

namespace Code

open World

variable {R : Clause → Clause → Prop}

/-- Running code changes every clause as its steps allow. -/
theorem evolves_run (ev : Evolution R) (i : Nat) (code : Code) (w : World) :
    Evolves R i w (code.run w).1 := by
  induction code generalizing w with
  | give v => exact ev.refl _
  | fail r => exact ev.refl _
  | load next ih => exact ih w.memory w
  | save m next ih => exact ih { w with memory := m }
  | call j c given block next rescue ihBlock ihNext ihRescue =>
      have called := evolves_perform ev (.given ihBlock given) w j c
      simp only [run]
      split <;> rename_i left <;> rw [left] at called
      · exact ev.trans called (ihNext _)
      · exact ev.trans called (ihRescue _ _)
  | register facet name next rescue ihNext ihRescue =>
      have kept := clause_register w facet name i
      simp only [run]
      split <;> rename_i left <;> rw [left] at kept
      · simpa only [Evolves, ← kept] using ihNext _ _
      · simpa only [Evolves, ← kept] using ihRescue _ _

/-- Calls a clause several times in turn.  What a call raises ends the run. -/
def calls (i : Nat) : List (Call × Given × (Value → Code)) → Code
  | [] => .give .null
  | (c, given, block) :: rest => .call i c given block (calls i rest) .fail

/-- Code, run from one world, comes by another: one it finds or leaves behind, or one that code
    which it passes to a call comes by. -/
inductive Visits : Code → World → World → Prop where
  | here {code w} : Visits code w w
  | load {next w w'} : Visits (next w.memory) w w' → Visits (.load next) w w'
  | save {m next w w'} : Visits next { w with memory := m } w' → Visits (.save m next) w w'
  | inside {i c block next rescue w v w₀ w'} : w.handed? i c = some (v, w₀) →
      Visits (block v) w₀ w' → Visits (.call i c .code block next rescue) w w'
  | returned {i c given block next rescue w w₁ w'} :
      w.perform i c (given.argument fun subject => (block subject).run) = (w₁, .ok ()) →
      Visits next w₁ w' → Visits (.call i c given block next rescue) w w'
  | raised {i c given block next rescue w w₁ r w'} :
      w.perform i c (given.argument fun subject => (block subject).run) = (w₁, .error r) →
      Visits (rescue r) w₁ w' → Visits (.call i c given block next rescue) w w'
  | registered {facet name next rescue w w₁ i w'} : w.register facet name = (w₁, .ok i) →
      Visits (next i) w₁ w' → Visits (.register facet name next rescue) w w'
  | refused {facet name next rescue w w₁ r w'} : w.register facet name = (w₁, .error r) →
      Visits (rescue r) w₁ w' → Visits (.register facet name next rescue) w w'

/-- The world at the end of a run is one the run comes by. -/
theorem visits_run (code : Code) (w : World) : Visits code w (code.run w).1 := by
  induction code generalizing w with
  | give v => exact .here
  | fail r => exact .here
  | load next ih => exact .load (ih w.memory w)
  | save m next ih => exact .save (ih _)
  | call i c given block next rescue _ ihNext ihRescue =>
      simp only [run]
      split <;> rename_i called
      · exact .returned called (ihNext _)
      · exact .raised called (ihRescue _ _)
  | register facet name next rescue ihNext ihRescue =>
      simp only [run]
      split <;> rename_i made
      · exact .registered made (ihNext _ _)
      · exact .refused made (ihRescue _ _)

end Code

namespace World

variable {R : Clause → Clause → Prop}

/-- Code that a call runs finds the clause as it was, or with an operator issued and a group
    opened. -/
theorem evolves_handed (ev : Steps R) (opened : ∀ c : Clause, R c c.openGroup) {i j : Nat}
    {call : Call} {w w₀ : World} {v : Value} (handed : w.handed? j call = some (v, w₀)) :
    Evolves R i w w₀ :=
  (ev.passage i).handed (fun _ _ => .setClause ev (opened _)) handed

end World

namespace Code

open World

variable {R : Clause → Clause → Prop}

/-- Every world that code comes by is one to which its clauses have changed as their steps
    allow, provided that the relation allows opening a group too. -/
theorem evolves_visits (ev : Evolution R) (opened : ∀ c : Clause, R c c.openGroup) (i : Nat)
    {code : Code} {w w' : World} (visits : Visits code w w') : Evolves R i w w' := by
  induction visits with
  | here => exact ev.refl _
  | load _ ih => exact ih
  | save _ ih => exact ih
  | inside handed _ ih => exact ev.trans (evolves_handed ev.toSteps opened handed) ih
  | @returned j c given block next rescue w w₁ w' called _ ih
  | @raised j c given block next rescue w w₁ r w' called _ ih =>
      have step := evolves_perform ev (.given (fun v => (block v).evolves_run ev i) given) w j c
      rw [called] at step
      exact ev.trans step ih
  | @registered facet name _ _ w _ _ _ made _ ih | @refused facet name _ _ w _ _ _ made _ ih =>
      have kept := clause_register w facet name i
      rw [made] at kept
      simpa only [Evolves, ← kept] using ih

end Code

end Assay
