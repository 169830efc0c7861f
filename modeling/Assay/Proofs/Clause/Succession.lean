import Assay.Proofs.Clause.Evolution

/-! # One state after another

A run comes by worlds in an order, those inside of the code that its calls are given included.  A
relation that the steps of a clause keep holds from the beginning of a run to each of them.  If it
holds over the end of a group as well, it holds between any two of them, the earlier one first.
-/

namespace Assay

open World

namespace World

/-- The worlds that the code of a call comes by, given how it runs. -/
def coursed (w : World) (i : Nat) (c : Call) (given : Given)
    (inner : Value → World → List World) : List World :=
  match given, w.handed? i c with
  | .code, some (v, w₀) => inner v w₀
  | _, _ => []

theorem mem_coursed {w x : World} {i : Nat} {c : Call} {given : Given}
    {inner : Value → World → List World} : x ∈ w.coursed i c given inner ↔
      given = .code ∧ ∃ v w₀, w.handed? i c = some (v, w₀) ∧ x ∈ inner v w₀ := by
  unfold coursed
  split
  · rename_i v w₀ handed
    simp only [handed, Option.some.injEq, Prod.mk.injEq, true_and]
    exact ⟨fun member => ⟨v, w₀, ⟨rfl, rfl⟩, member⟩, fun ⟨_, _, same, member⟩ =>
      same.1 ▸ same.2 ▸ member⟩
  · rename_i none
    simp only [List.not_mem_nil, false_iff]
    rintro ⟨rfl, v, w₀, handed, _⟩
    exact none v w₀ rfl handed

end World

namespace Code

/-- The worlds that a run comes by, in the order in which it does. -/
def course : Code → World → List World
  | .give _, w | .fail _, w => [w]
  | .load next, w => w :: (next w.memory).course w
  | .save m next, w => w :: next.course { w with memory := m }
  | .call i c given block next rescue, w =>
    let inner := w.coursed i c given fun v => (block v).course
    match w.perform i c (given.argument fun subject => (block subject).run) with
    | (w₁, .ok _) => w :: (inner ++ next.course w₁)
    | (w₁, .error r) => w :: (inner ++ (rescue r).course w₁)
  | .register facet name next rescue, w =>
    match w.register facet name with
    | (w₁, .ok i) => w :: (next i).course w₁
    | (w₁, .error r) => w :: (rescue r).course w₁

/-- A course has the worlds that the run comes by, and no others. -/
theorem mem_course {code : Code} {w x : World} : x ∈ code.course w ↔ code.Visits w x := by
  constructor
  · intro member
    induction code generalizing w with
    | give v => exact List.mem_singleton.mp member ▸ .here
    | fail r => exact List.mem_singleton.mp member ▸ .here
    | load next ih =>
        rcases List.mem_cons.mp member with rfl | later
        · exact .here
        · exact .load (ih _ later)
    | save m next ih =>
        rcases List.mem_cons.mp member with rfl | later
        · exact .here
        · exact .save (ih later)
    | call i c given block next rescue ihBlock ihNext ihRescue =>
        simp only [course] at member
        split at member <;> rename_i called <;>
          rcases List.mem_cons.mp member with rfl | member <;> try exact .here
        all_goals
          rcases List.mem_append.mp member with inside | later
          · obtain ⟨rfl, v, w₀, handed, inside⟩ := mem_coursed.mp inside
            exact .inside handed (ihBlock v inside)
        · exact .returned called (ihNext later)
        · exact .raised called (ihRescue _ later)
    | register facet name next rescue ihNext ihRescue =>
        simp only [course] at member
        split at member <;> rename_i made <;>
          rcases List.mem_cons.mp member with rfl | later <;> try exact .here
        · exact .registered made (ihNext _ later)
        · exact .refused made (ihRescue _ later)
  · intro visits
    induction visits with
    | @here code w => cases code <;> simp only [course] <;> (try split) <;> simp
    | load _ ih | save _ ih => exact List.mem_cons_of_mem _ ih
    | inside handed _ ih =>
        simp only [course]
        split <;> exact List.mem_cons_of_mem _
          (List.mem_append_left _ (mem_coursed.mpr ⟨rfl, _, _, handed, ih⟩))
    | returned called _ ih | raised called _ ih =>
        simp only [course, called]
        exact List.mem_cons_of_mem _ (List.mem_append_right _ ih)
    | registered made _ ih | refused made _ ih =>
        simp only [course, made]
        exact List.mem_cons_of_mem _ ih

end Code

/-! ## From each state to all later ones -/

/-- What goes on from each state of a clause to all later ones.  `E` is what all steps keep, `R`
    what of it holds over the end of a group as well, and `I` what is known of every state. -/
structure Succession (I : Clause → Prop) (E R : Clause → Clause → Prop) : Prop where
  evolution : Evolution E
  opened : ∀ c : Clause, E c c.openGroup
  weaken : ∀ {c c'}, E c c' → R c c'
  trans : ∀ {a b c}, R a b → R b c → R a c
  known : ∀ {c c'}, R c c' → I c → I c'
  left : ∀ c : Clause, R c { c with depth := c.depth - 1 }
  closed : ∀ {outer inner : Clause}, I outer → E outer.openGroup inner →
    R inner (Clause.closeGroup outer { inner with depth := inner.depth - 1 }).1

variable {I : Clause → Prop} {E R : Clause → Clause → Prop}

namespace Succession

variable (suc : Succession I E R) {i : Nat} {w x : World}
include suc

theorem steps : Steps R where
  refl c := suc.weaken (suc.evolution.refl c)
  trans := suc.trans
  issue issued := suc.weaken (suc.evolution.issue issued)
  setSubject c call captured v := suc.weaken (suc.evolution.setSubject c call captured v)
  restoreTo c v := suc.weaken (suc.evolution.restoreTo c v)
  judge c m captured matched := suc.weaken (suc.evolution.judge c m captured matched)
  abort c call role text captured := suc.weaken (suc.evolution.abort c call role text captured)

theorem run (code : Code) (w : World) : Evolves R i w (code.run w).1 :=
  suc.weaken (code.evolves_run suc.evolution i w)

theorem visits {code : Code} (visits : code.Visits w x) : Evolves R i w x :=
  suc.weaken (Code.evolves_visits suc.evolution suc.opened i visits)

theorem handed {j : Nat} {c : Call} {v : Value} {w₀ : World}
    (handed : w.handed? j c = some (v, w₀)) : Evolves R i w w₀ :=
  suc.weaken (evolves_handed suc.evolution.toSteps suc.opened handed)

theorem perform {j : Nat} {c : Call} {given : Given} {block : Value → Code} {o : Outcome Unit}
    (called : w.perform j c (given.argument fun v => (block v).run) = o) : Evolves R i w o.1 :=
  called ▸ suc.weaken (evolves_perform suc.evolution
    (.given (fun v => (block v).evolves_run suc.evolution i) given) w j c)

/-- What the code of a call leaves behind goes on to the end of the call. -/
theorem onward {j : Nat} {call : Call} {v : Value} {w₀ : World} {b : Value → Code}
    (known : I (w.clause i)) (handed : w.handed? j call = some (v, w₀)) :
    Evolves R i ((b v).run w₀).1 (w.perform j call (.code fun v => (b v).run)).1 := by
  cases call with
  | logic op =>
      obtain ⟨step, issued, opened, same⟩ := perform_group handed fun v => (b v).run
      have ran := (b v).evolves_run suc.evolution i w₀
      rw [same]
      refine (suc.steps.passage i).endsGroup (.setClause suc.steps (suc.left _)) fun _ => ?_
      by_cases here : j = i
      · subst here
        rw [Evolves, opened] at ran
        have outer := suc.known (suc.weaken (suc.evolution.issue issued)) known
        exact .setClause suc.steps (suc.closed outer ran)
      · simpa [Evolves, clause_setClause_of_ne here] using suc.steps.refl _
  | that | pick | err | check m =>
      exact (suc.steps.passage i).called (b := fun v => (b v).run) rfl handed (by simp)

/-- What a run comes by goes on to its end. -/
theorem toEnd {code : Code} (visits : code.Visits w x) (known : I (w.clause i)) :
    Evolves R i x (code.run w).1 := by
  induction visits with
  | here => exact suc.run _ _
  | load _ ih | save _ ih => exact ih known
  | @inside j c block next rescue w v w₀ x handed _ ih =>
      have ended := suc.trans (ih (suc.known (suc.handed handed) known)) (suc.onward known handed)
      simp only [Code.run, Given.argument]
      split <;> rename_i called <;> rw [called] at ended <;> exact suc.trans ended (suc.run _ _)
  | returned called _ ih | raised called _ ih =>
      simpa only [Code.run, called] using ih (suc.known (suc.perform called) known)
  | @registered facet name next rescue w w₁ j x made _ ih
  | @refused facet name next rescue w w₁ r x made _ ih =>
      have kept := clause_register w facet name i
      rw [made] at kept
      simpa only [Code.run, made] using ih (kept ▸ known)

/-! ## All worlds of a run -/

theorem first {code : Code} {later : List World} (same : code.course w = w :: later)
    (pairs : later.Pairwise (Evolves R i)) : (code.course w).Pairwise (Evolves R i) := by
  have onward : ∀ x ∈ later, Evolves R i w x := fun x member =>
    suc.visits (Code.mem_course.mp (same ▸ List.mem_cons_of_mem w member))
  exact same ▸ List.pairwise_cons.mpr ⟨onward, pairs⟩

/-- The worlds of the code that a call is given lead to the end of the call, and that leads to the
    worlds after it. -/
theorem called {j : Nat} {c : Call} {given : Given} {block : Value → Code} {rest : Code}
    {o : Outcome Unit} (known : I (w.clause i))
    (called : w.perform j c (given.argument fun v => (block v).run) = o)
    (inside : ∀ v w₀, I (w₀.clause i) → ((block v).course w₀).Pairwise (Evolves R i))
    (after : I (o.1.clause i) → (rest.course o.1).Pairwise (Evolves R i)) :
    ((w.coursed j c given fun v => (block v).course) ++ rest.course o.1).Pairwise
      (Evolves R i) := by
  have begun {v w₀} (handed : w.handed? j c = some (v, w₀)) : I (w₀.clause i) :=
    suc.known (suc.handed handed) known
  refine List.pairwise_append.mpr
    ⟨?_, after (suc.known (suc.perform called) known), fun x within y later => ?_⟩
  · unfold coursed
    split
    · rename_i handed
      exact inside _ _ (begun handed)
    · exact .nil
  · obtain ⟨rfl, v, w₀, handed, within⟩ := mem_coursed.mp within
    have ended := suc.onward (b := block) known handed
    rw [show w.perform j c (.code fun v => (block v).run) = o from called] at ended
    exact suc.trans (suc.toEnd (Code.mem_course.mp within) (begun handed))
      (suc.trans ended (suc.visits (Code.mem_course.mp later)))

/-- Between any two worlds that a run comes by, the clause goes on as the relation allows. -/
theorem pairwise {code : Code} (known : I (w.clause i)) :
    (code.course w).Pairwise (Evolves R i) := by
  induction code generalizing w with
  | give v | fail r => exact List.pairwise_singleton _ _
  | load next ih => exact suc.first rfl (ih _ known)
  | save m next ih => exact suc.first rfl (ih known)
  | call j c given block next rescue ihBlock ihNext ihRescue =>
      have inside v w₀ (known : I (World.clause w₀ i)) := ihBlock v (w := w₀) known
      cases called : w.perform j c (given.argument fun v => (block v).run) with
      | mk w₁ result =>
          cases result with
          | ok =>
              exact suc.first (by simp only [Code.course, called])
                (suc.called known called inside ihNext)
          | error r =>
              exact suc.first (by simp only [Code.course, called])
                (suc.called known called inside (ihRescue r))
  | register facet name next rescue ihNext ihRescue =>
      have kept := clause_register w facet name i
      cases made : w.register facet name with
      | mk w₁ result =>
          rw [made] at kept
          cases result with
          | ok j =>
              exact suc.first (by simp only [Code.course, made]) (ihNext j (kept ▸ known))
          | error r =>
              exact suc.first (by simp only [Code.course, made]) (ihRescue r (kept ▸ known))

end Succession

end Assay
