import Assay.Proofs.Clause.Course

/-! # Runs in which groups are closed

A group is closed when the call that has opened it returns.  If the call raises, the chain goes on
inside the group instead, and what waited around it is never found again.  As long as this does not
happen, a run is made of steps that lie within one group and of groups that are whole.
-/

namespace Assay

open World

namespace Code

/-! ## Groups that are not left -/

/-- Every group call on a clause, if it gets to run its block, returns. -/
def GroupsReturn (code : Code) (w : World) (i : Nat) : Prop :=
  ∀ {op block next rescue w₁ v w₀},
    code.Reaches w (.call i (.logic op) .code block next rescue) w₁ →
    w₁.handed? i (.logic op) = some (v, w₀) →
    (w₁.perform i (.logic op) (.code fun v => (block v).run)).2 = .ok ()

variable {code k : Code} {w w₁ : World} {i : Nat}

theorem GroupsReturn.after (returns : code.GroupsReturn w i) (reached : code.Reaches w k w₁) :
    k.GroupsReturn w₁ i :=
  fun reached' handed => returns (reached.trans reached') handed

/-- What happens from a place of a run on happens in the run. -/
theorem Reaches.history_subset (reached : code.Reaches w k w₁) :
    k.history w₁ ⊆ code.history w := by
  induction reached with
  | here => exact List.Subset.refl _
  | load _ ih | save _ ih => exact ih
  | inside handed _ ih =>
      refine List.Subset.trans ih ?_
      simp only [history, within, handed]
      split <;> exact List.subset_append_left _ _
  | returned called _ ih | raised called _ ih =>
      simp only [history, called]
      exact List.subset_append_of_subset_right _ (List.subset_cons_of_subset _ ih)
  | registered made _ ih | refused made _ ih => simpa only [history, made] using ih

/-- A chain without errors leaves no group. -/
theorem GroupsReturn.of_history (returned : ∀ e ∈ code.history w, e.1 = i → e.2.2 = .ok ()) :
    code.GroupsReturn w i := by
  intro op block next rescue w₁ v w₀ reached handed
  have event : (i, Call.logic op, (w₁.perform i (.logic op) (.code fun v => (block v).run)).2) ∈
      (Code.call i (.logic op) .code block next rescue).history w₁ := by
    simp only [history, Given.argument]
    split <;> rename_i called <;> simp [called]
  exact returned _ (reached.history_subset event) rfl

end Code

/-! ## What such runs keep -/

/-- What the steps of a clause keep, and the ends of groups that their blocks have led to. -/
structure Closing (R : Clause → Clause → Prop) : Prop extends Steps R where
  closeGroup : ∀ {outer inner : Clause}, R outer.openGroup inner →
    Evolved outer.openGroup inner →
    R outer (Clause.closeGroup outer { inner with depth := inner.depth - 1 }).1

namespace Code

variable {R : Clause → Clause → Prop} {i j : Nat} {c : Call} {given : Given}
  {block : Value → Code} {code next : Code} {rescue : Raised → Code} {w w' : World}

/-- A call keeps what its code keeps, if its group is closed. -/
theorem closes_perform (closing : Closing R)
    (returns : (Code.call j c given block next rescue).GroupsReturn w i)
    (inside : ∀ v {w₀}, (block v).GroupsReturn w₀ i → Evolves R i w₀ ((block v).run w₀).1) :
    Evolves R i w (w.perform j c (given.argument fun v => (block v).run)).1 := by
  have passage := closing.toSteps.passage i
  cases given with
  | absent | plain => exact passage.unrun (by rintro b ⟨⟩)
  | code =>
      cases handed : w.handed? j c with
      | none => exact passage.unrun fun _ _ => handed
      | some begun =>
          obtain ⟨v, w₀⟩ := begun
          have ran := inside v (returns.after (.inside handed .here))
          cases c with
          | that | pick | err | check m =>
              have same := handed_alone handed (by simp)
              exact closing.trans (same ▸ ran)
                (passage.called (b := fun v => (block v).run) rfl handed (by simp))
          | logic op =>
              by_cases here : j = i
              · subst here
                have returned := returns .here handed
                have evolved := (block v).evolves_run evolved_evolution j w₀
                obtain ⟨step, issued, opened, same⟩ := perform_group handed fun v => (block v).run
                rw [Evolves, opened] at ran evolved
                rw [same] at returned
                simp only [Given.argument, Evolves, same]
                rw [endGroup_returned returned]
                exact closing.trans (closing.issue issued) (closing.closeGroup ran evolved)
              · exact evolves_elsewhere (b := fun v => (block v).run) closing.toSteps here
                  handed ran

/-- Between its beginning and its end a run in which groups are closed keeps what its steps keep. -/
theorem closes_run (closing : Closing R) (returns : code.GroupsReturn w i) :
    Evolves R i w (code.run w).1 := by
  induction code generalizing w with
  | give v | fail r => exact closing.refl _
  | load next ih => exact ih w.memory (returns.after (.load .here))
  | save m next ih => exact ih (w := { w with memory := m }) (returns.after (.save .here))
  | call j c given block next rescue ihBlock ihNext ihRescue =>
      have called := closes_perform closing returns fun v _ => ihBlock v
      simp only [run]
      split <;> rename_i left <;> rw [left] at called
      · exact closing.trans called (ihNext (returns.after (.returned left .here)))
      · exact closing.trans called (ihRescue _ (returns.after (.raised left .here)))
  | register facet name next rescue ihNext ihRescue =>
      have kept := clause_register w facet name i
      simp only [run]
      split <;> rename_i made <;> rw [made] at kept
      · simpa only [Evolves, ← kept] using ihNext _ (returns.after (.registered made .here))
      · simpa only [Evolves, ← kept] using ihRescue _ (returns.after (.refused made .here))

/-- It keeps it up to wherever code comes by, if opening a group keeps it as well. -/
theorem closes_visits (closing : Closing R) (opened : ∀ c : Clause, R c c.openGroup)
    (visits : code.Visits w w') (returns : code.GroupsReturn w i) : Evolves R i w w' := by
  induction visits with
  | here => exact closing.refl _
  | load _ ih => exact ih (returns.after (.load .here))
  | save _ ih => exact ih (returns.after (.save .here))
  | inside handed _ ih =>
      exact closing.trans (evolves_handed closing.toSteps opened handed)
        (ih (returns.after (.inside handed .here)))
  | returned called _ ih =>
      have ended := closes_perform closing returns fun _ _ => closes_run closing
      rw [called] at ended
      exact closing.trans ended (ih (returns.after (.returned called .here)))
  | raised called _ ih =>
      have ended := closes_perform closing returns fun _ _ => closes_run closing
      rw [called] at ended
      exact closing.trans ended (ih (returns.after (.raised called .here)))
  | @registered facet name _ _ w _ _ _ made _ ih =>
      have kept := clause_register w facet name i
      rw [made] at kept
      simpa only [Evolves, ← kept] using ih (returns.after (.registered made .here))
  | @refused facet name _ _ w _ _ _ made _ ih =>
      have kept := clause_register w facet name i
      rw [made] at kept
      simpa only [Evolves, ← kept] using ih (returns.after (.refused made .here))

end Code

end Assay
