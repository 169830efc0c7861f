import Assay.Proofs.Clause.Lockstep
import Assay.Proofs.Clause.Places

/-! # What holds of a clause all through a run

What every step of a clause keeps holds wherever a run comes by.  A run is in lockstep with itself,
so it is enough to look at the steps.

A clause records for good: what it has recorded at some place of a run it still has at its end.
-/

namespace Assay

/-- What the steps of a clause keep, as long as snapshots are taken of values of one kind only. -/
structure Invariant (P : Heap → Value → Prop) (I : Clause → Prop) : Prop where
  issue : ∀ {c op step}, I c → c.addOperator op = .ok step → I step.1
  setSubject : ∀ {c h v s} (o : Operation), o ≠ .pick → I c → P h v → c.picture h v = .ok s →
    I (c.setSubject o s v)
  pick : ∀ {c h v s} (x : Value), I c → P h v → c.picture h v = .ok s →
    I { c.setSubject .pick s v with restore := some x }
  judge : ∀ {c h v s} (m : Matcher) (matched : Bool), I c → P h v → c.picture h v = .ok s →
    I (c.judge m s matched).1
  abort : ∀ {c h v s} (o : Operation) (role : Role) (text : String), I c → P h v →
    c.picture h v = .ok s → I (c.abort o role text s)
  openGroup : ∀ {c}, I c → I c.openGroup
  leaveGroup : ∀ {inner : Clause}, I inner → I { inner with depth := inner.depth - 1 }
  closeGroup : ∀ {outer inner : Clause}, I outer → I inner → Evolved outer.openGroup inner →
    I (Clause.closeGroup outer { inner with depth := inner.depth - 1 }).1

namespace Invariant

variable {P : Heap → Value → Prop} {I : Clause → Prop}

/-- Steps that are made on a state and itself keep what holds of it. -/
theorem paired (invariant : Invariant P I) : Paired Eq P fun c c' => c' = c ∧ I c where
  subject same := by rw [same.1]
  status same := by rw [same.1]
  remember v memory same := by rw [memory, same.1]
  picture same shown := (paired_same P).picture same.1 shown
  issue := by
    rintro c c' op ⟨rfl, holds⟩
    cases issued : c'.addOperator op with
    | error m => exact .inl ⟨m, rfl, rfl⟩
    | ok step => exact .inr ⟨step, step, rfl, rfl, rfl, invariant.issue holds issued⟩
  setSubject := by
    rintro c c' v s s' o sets ⟨rfl, holds⟩ pictured
    cases pictured.eq_of_picture fun _ => rfl
    obtain ⟨h, shown, taken, _⟩ := pictured
    exact ⟨rfl, invariant.setSubject o sets holds shown taken⟩
  pick := by
    rintro c c' v s s' x ⟨rfl, holds⟩ pictured
    cases pictured.eq_of_picture fun _ => rfl
    obtain ⟨h, shown, taken, _⟩ := pictured
    exact ⟨rfl, invariant.pick x holds shown taken⟩
  judge := by
    rintro c c' v s s' m matched ⟨rfl, holds⟩ pictured
    cases pictured.eq_of_picture fun _ => rfl
    obtain ⟨h, shown, taken, _⟩ := pictured
    exact ⟨rfl, invariant.judge m matched holds shown taken⟩
  abort := by
    rintro c c' v s s' o role text ⟨rfl, holds⟩ pictured
    cases pictured.eq_of_picture fun _ => rfl
    obtain ⟨h, shown, taken, _⟩ := pictured
    exact ⟨rfl, invariant.abort o role text holds shown taken⟩
  openGroup same := ⟨by rw [same.1], invariant.openGroup same.2⟩
  leaveGroup _ inner _ _ := ⟨by rw [inner.1], invariant.leaveGroup inner.2⟩
  closeGroup outer inner evolved _ _ :=
    ⟨by rw [outer.1, inner.1], invariant.closeGroup outer.2 inner.2 evolved⟩

theorem lockstep (invariant : Invariant P I) : Lockstep Eq P fun _ c c' => c' = c ∧ I c :=
  { oneHeap_eq with steps := fun _ => invariant.paired }

theorem abreast {w : World} (holds : ∀ i, I (w.clause i)) :
    World.Abreast Eq (fun _ c c' => c' = c ∧ I c) w w :=
  ⟨rfl, rfl, rfl, fun i => ⟨rfl, holds i⟩⟩

/-- What holds at the start of a run holds at its end. -/
theorem run (invariant : Invariant P I) {code : Code} {w : World} (holds : ∀ i, I (w.clause i))
    (shown : ∀ h v, code.Shows w h v → P h v) (i : Nat) : I ((code.run w).1.clause i) :=
  ((invariant.lockstep.run code.alike_eq (abreast holds) shown).1.world.clauses i).2

theorem called (invariant : Invariant P I) {i : Nat} {c : Call} {given : Given}
    {block : Value → Code} {next : Code} {rescue : Raised → Code} {w : World}
    (holds : ∀ i, I (w.clause i))
    (shown : ∀ h v, (Code.call i c given block next rescue).Shows w h v → P h v) (j : Nat) :
    I ((w.perform i c (given.argument fun v => (block v).run)).1.clause j) :=
  ((invariant.lockstep.called (fun v => (block v).alike_eq) (abreast holds) shown).world.clauses
    j).2

/-- What holds at the start of a run holds at every place of it. -/
theorem reaches (invariant : Invariant P I) {code k : Code} {w w₁ : World}
    (reached : code.Reaches w k w₁) (holds : ∀ i, I (w.clause i))
    (shown : ∀ h v, code.Shows w h v → P h v) : ∀ i, I (w₁.clause i) := by
  induction reached with
  | here => exact holds
  | load _ ih => exact ih holds fun h v inside => shown h v (.before (.load .here) inside)
  | save _ ih => exact ih holds fun h v inside => shown h v (.before (.save .here) inside)
  | inside handed _ ih =>
      refine ih (fun j => ?_) fun h v inside => shown h v (.before (.inside handed .here) inside)
      rcases invariant.lockstep.handed_abreast (abreast holds) _ _ with
        ⟨none, _⟩ | ⟨_, _, _, found, _, begun⟩
      · cases handed.symm.trans none
      · cases handed.symm.trans found
        exact (begun.clauses j).2
  | returned called _ ih | raised called _ ih =>
      refine ih (fun j => ?_) fun h v inside => shown h v ?_
      · have ended := invariant.called holds shown j
        rwa [called] at ended
      · exact .before (by first | exact .returned called .here | exact .raised called .here) inside
  | @registered facet name _ _ w _ _ _ _ made _ ih | @refused facet name _ _ w _ _ _ _ made _ ih =>
      refine ih (fun j => ?_) fun h v inside => shown h v ?_
      · have kept := World.clause_register w facet name j
        rw [made] at kept
        exact kept ▸ holds j
      · exact .before (by first | exact .registered made .here | exact .refused made .here) inside

end Invariant

/-! ## From a place to the end -/

open Clause World

/-- What a clause has recorded at the end of what is run at a place, it has recorded at the end of
    the run. -/
theorem Code.Reaches.extends {code k : Code} {w w₁ : World} (reached : code.Reaches w k w₁)
    (i : Nat) : Evolves Extends i (k.run w₁).1 (code.run w).1 :=
  extends_succession.toEnd (reached.visits (k.visits_run w₁)) trivial

end Assay
