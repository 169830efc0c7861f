import Assay.Proofs.Clause.Course
import Assay.Proofs.Clause.Places

/-! # Requests to end the process

A request to end the process is an exception that ordinary handlers let pass.  On its way out it
leaves every group it comes through, so that no group is taken for open any more that the caller has
not opened, and apart from that it finds nothing to do: no record is added to any trace, no status
changes, no note is made.
-/

namespace Assay

/-! ## On the way out of one call -/

namespace World

/-- Groups have been left, and nothing else has happened. -/
structure Unwound (w w' : World) : Prop where
  memory : w'.memory = w.memory
  options : w'.options = w.options
  facets : w'.facets = w.facets
  log : w'.log = w.log
  clauses : ∀ i, w'.clause i = { w.clause i with depth := (w'.clause i).depth }

theorem Unwound.refl (w : World) : Unwound w w where
  memory := rfl
  options := rfl
  facets := rfl
  log := rfl
  clauses _ := rfl

theorem Unwound.trans {w₁ w₂ w₃ : World} (first : Unwound w₁ w₂) (second : Unwound w₂ w₃) :
    Unwound w₁ w₃ where
  memory := second.memory.trans first.memory
  options := second.options.trans first.options
  facets := second.facets.trans first.facets
  log := second.log.trans first.log
  clauses i := by rw [second.clauses i, first.clauses i]

theorem unwound_setClause (w : World) (i n : Nat) :
    Unwound w (w.setClause i { w.clause i with depth := n }) where
  memory := rfl
  options := rfl
  facets := rfl
  log := rfl
  clauses j := by
    by_cases here : i = j
    · subst here
      rw [clause_setClause_self]
    · rw [clause_setClause_of_ne here]

variable {w w₀ w₁ : World} {i : Nat} {b : Block} {v : Value} {a : Address}

theorem produce_interrupt (ran : b v w = (w₁, .error (.interrupt a))) (o : Operation)
    (role : Role) : w.produce i o role (.code b) v = (w₁, .error (.interrupt a)) := by
  simp only [produce, Argument.block?, ran]
  rfl

/-- A group that is left takes itself for closed. -/
theorem endGroup_interrupt (w : World) (i : Nat) (owner : Operator) (outer : Clause) (a : Address) :
    endGroup i owner outer (w, .error (.interrupt a)) =
      (w.setClause i { w.clause i with depth := (w.clause i).depth - 1 }, .error (.interrupt a)) :=
  rfl

/-- A call lets a request to end the process pass that its code raises. -/
theorem perform_interrupt {c : Call} (handed : w.handed? i c = some (v, w₀))
    (ran : b v w₀ = (w₁, .error (.interrupt a))) :
    ∃ w₂, w.perform i c (.code b) = (w₂, .error (.interrupt a)) ∧ w₁.Unwound w₂ := by
  cases c with
  | that =>
      cases handed
      exact ⟨w₁, by simp only [perform, produce_interrupt ran, Outcome.andThen], .refl w₁⟩
  | pick =>
      simp only [handed?, Option.map_eq_some_iff, Prod.mk.injEq] at handed
      obtain ⟨_, present, rfl, rfl⟩ := handed
      exact ⟨w₁, by simp only [perform, pick, present, produce_interrupt ran, Outcome.andThen],
        .refl w₁⟩
  | err =>
      cases handed
      exact ⟨w₁, by simp only [perform, catchError, Argument.block?, ran]; rfl, .refl w₁⟩
  | check m =>
      simp only [handed?] at handed
      split at handed
      · cases handed
      · rename_i present
        cases handed
        exact ⟨w₁, by simp only [perform, if_neg present, produce_interrupt ran, Outcome.andThen],
          .refl w₁⟩
  | logic op =>
      obtain ⟨step, _, _, same⟩ := perform_group handed b
      rw [same, ran, endGroup_interrupt]
      exact ⟨_, rfl, unwound_setClause w₁ i _⟩

end World

open World

/-! ## On the way out of a program -/

namespace Code

/-- Code, run from one world, raises a request to end the process in another, and no code that is
    around that place handles it. -/
inductive Interrupts (a : Address) : Code → World → World → Prop where
  | fail {w} : Interrupts a (.fail (.interrupt a)) w w
  | load {next w w'} : Interrupts a (next w.memory) w w' → Interrupts a (.load next) w w'
  | save {m next w w'} : Interrupts a next { w with memory := m } w' →
      Interrupts a (.save m next) w w'
  | inside {i c block next rescue w v w₀ w'} : w.handed? i c = some (v, w₀) →
      rescue (.interrupt a) = .fail (.interrupt a) → Interrupts a (block v) w₀ w' →
      Interrupts a (.call i c .code block next rescue) w w'
  | returned {i c given block next rescue w w₁ w'} :
      w.perform i c (given.argument fun subject => (block subject).run) = (w₁, .ok ()) →
      Interrupts a next w₁ w' → Interrupts a (.call i c given block next rescue) w w'
  | raised {i c given block next rescue w w₁ r w'} :
      w.perform i c (given.argument fun subject => (block subject).run) = (w₁, .error r) →
      Interrupts a (rescue r) w₁ w' → Interrupts a (.call i c given block next rescue) w w'
  | registered {facet name next rescue w w₁ i w'} : w.register facet name = (w₁, .ok i) →
      Interrupts a (next i) w₁ w' → Interrupts a (.register facet name next rescue) w w'
  | refused {facet name next rescue w w₁ r w'} : w.register facet name = (w₁, .error r) →
      Interrupts a (rescue r) w₁ w' → Interrupts a (.register facet name next rescue) w w'

variable {a : Address} {code : Code} {w w' : World}

/-- A request to end the process that nobody handles is what code comes to. -/
theorem Interrupts.run (interrupts : code.Interrupts a w w') :
    ∃ w'', code.run w = (w'', .error (.interrupt a)) ∧ w'.Unwound w'' := by
  induction interrupts with
  | fail => exact ⟨_, rfl, .refl _⟩
  | load _ ih | save _ ih => exact ih
  | @inside i c block next rescue w v w₀ w' handed rethrows _ ih =>
      obtain ⟨w₁, ran, left⟩ := ih
      obtain ⟨w₂, called, passed⟩ :=
        perform_interrupt (b := fun subject => (block subject).run) handed ran
      refine ⟨w₂, ?_, left.trans passed⟩
      simp only [Code.run, Given.argument, called, rethrows]
  | returned called _ ih | raised called _ ih => simpa only [Code.run, called] using ih
  | registered made _ ih | refused made _ ih => simpa only [Code.run, made] using ih

end Code

open Clause

end Assay
