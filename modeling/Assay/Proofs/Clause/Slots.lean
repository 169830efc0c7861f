import Assay.Proofs.Clause.Course
import Assay.Proofs.Clause.Integrity
import Assay.Proofs.Clause.Standing

/-! # What the slots of a clause name

A clause has a slot for the record that is to the left of the next operator, or is that operator
itself, and one for an operator that a `not` has deferred.  The second is in use only while the
first names that `not`, and a verdict empties it.
-/

namespace Assay

theorem Operation.operator?_eq_some {o : Operation} {op : Operator} :
    o.operator? = some op ↔ o = .logic op := by
  cases o <;> simp [Operation.operator?]

namespace Clause

/-- The slots name records of the trace.  After an operator that is deferred there is the `not` that
    waits for its verdict. -/
structure Slotted (c : Clause) : Prop where
  slots : c.Slots
  active : ∀ a, c.active = some a → a < c.entries.length
  waits : ∀ d, c.deferred = some d → ∃ a, c.waiting? = some (a, .not) ∧ d < a

variable {c c' : Clause}

theorem slotted_new (o : Options) : Slotted { options := o } where
  slots := slots_none rfl
  active := nofun
  waits := nofun

/-! ## Steps -/

theorem waiting?_issue (c : Clause) (op : Operator) (left : Status) :
    (c.issue op left).waiting? = some (c.entries.length, op) := by
  have found : (c.issue op left).entries[c.entries.length]? =
      some (Record.logic (.logic op) (some left)).unlinked := by
    rw [entries_issue, List.getElem?_concat_length]
  exact (waiting?_eq_some _).mpr ⟨congrArg some c.length_entries.symm, _, found, rfl, rfl⟩

/-- Nothing waits at a record that is no operator. -/
theorem waiting?_of_last {es : List Record} {r : Record} (entries : c.entries = es ++ [r])
    (active : c.active = some es.length) (judged : r.operation.operator? = none) :
    c.waiting? = none := by
  rw [waiting?_eq, active, entries]
  simp [judged]

/-- Nothing is deferred, and what is to the left of the next operator is resolved. -/
def Concluded (c : Clause) : Prop :=
  c.deferred = none ∧ ∃ a r, c.active = some a ∧ c.result.trace[a]? = some r ∧ r.isResolved = true

namespace Slotted

/-- Where nothing waits, nothing is deferred. -/
theorem deferred_of_idle (slotted : c.Slotted) (idle : c.waiting? = none) : c.deferred = none := by
  cases pushed : c.deferred with
  | none => rfl
  | some d =>
      obtain ⟨a, waits, _⟩ := slotted.waits d pushed
      cases idle.symm.trans waits

/-- What is deferred comes before all that waits. -/
theorem deferred_lt (slotted : c.Slotted) {d a : Nat} {op : Operator}
    (pushed : c.deferred = some d) (waits : c.waiting? = some (a, op)) : d < a := by
  obtain ⟨_, waits', before⟩ := slotted.waits d pushed
  cases waits.symm.trans waits'
  exact before

/-- Both slots in terms of the trace. -/
theorem named (slotted : c.Slotted) {d : Nat} (pushed : c.deferred = some d) :
    ∃ a r s op, c.active = some a ∧ d < a ∧
      c.result.trace[a]? = some r ∧ r.operation = .logic .not ∧ r.status = .notImplemented ∧
      c.result.trace[d]? = some s ∧ s.operation = .logic op ∧ s.status = .notImplemented := by
  obtain ⟨a, waits, before⟩ := slotted.waits d pushed
  obtain ⟨s, op, at_d, deferred, operator⟩ := slotted.slots d pushed
  obtain ⟨active, r, at_a, isOpen, negates⟩ := c.waiting?_eq_some.mp waits
  rw [getElem?_entries, Option.map_eq_some_iff] at at_a at_d
  obtain ⟨r, at_a, rfl⟩ := at_a
  obtain ⟨s, at_d, rfl⟩ := at_d
  exact ⟨a, r, s, op, active, before, at_a, Operation.operator?_eq_some.mp negates, isOpen, at_d,
    Operation.operator?_eq_some.mp operator, deferred⟩

/-- Records that are kept are named as before. -/
theorem kept (slotted : c.Slotted) (slots : c'.Slots) (active : c'.active = c.active)
    (deferred : c'.deferred = c.deferred) (length : c.entries.length ≤ c'.entries.length)
    (kept : ∀ j < c.entries.length, c'.entries[j]? = c.entries[j]?) :
    c'.waiting? = c.waiting? ∧ c'.Slotted := by
  have waits : c'.waiting? = c.waiting? := by
    rw [waiting?_eq, waiting?_eq, active]
    cases named : c.active with
    | none => rfl
    | some a => simp only [Option.bind_some, kept a (slotted.active a named)]
  refine ⟨waits, slots, fun a named => ?_, fun d named => ?_⟩
  · exact Nat.lt_of_lt_of_le (slotted.active a (active ▸ named)) length
  · exact waits ▸ slotted.waits d (deferred ▸ named)

theorem append (slotted : c.Slotted) {r : Record} (entries : c'.entries = c.entries ++ [r])
    (active : c'.active = c.active) (deferred : c'.deferred = c.deferred) :
    c'.waiting? = c.waiting? ∧ c'.Slotted :=
  slotted.kept (slotted.slots.append entries deferred) active deferred (by simp [entries])
    fun _ inside => by rw [entries, List.getElem?_append_left inside]

/-- An operator waits once it is issued, and it defers what has waited before. -/
theorem issued (slotted : c.Slotted) {op : Operator} {step : Clause × List String}
    (issued : c.addOperator op = .ok step) :
    step.1.waiting? = some (c.entries.length, op) ∧ step.1.deferred = c.waiting?.map (·.1) ∧
      step.1.Slotted := by
  have slots : step.1.Slots := ((lasts_evolution.issue issued).settles slotted.slots).1
  obtain ⟨_, entries⟩ := c.entries_issued issued
  have active (waiting : step.1.waiting? = some (c.entries.length, op)) (a : Nat)
      (named : step.1.active = some a) : a < step.1.entries.length := by
    cases (step.1.waiting?_eq_some.mp waiting).1.symm.trans named
    simp [entries]
  rcases c.addOperator_cases issued with ⟨idle, left, same, _⟩ | ⟨a, op', left, waits, rfl, same⟩
  · have waiting : step.1.waiting? = some (c.entries.length, op) :=
      same ▸ c.waiting?_issue op left
    have empty : step.1.deferred = none := same ▸ slotted.deferred_of_idle idle
    refine ⟨waiting, by rw [empty, idle]; rfl, slots, active waiting, fun d named => ?_⟩
    cases empty.symm.trans named
  · have waiting : step.1.waiting? = some (c.entries.length, .not) :=
      same ▸ ({ c with deferred := some a } : Clause).waiting?_issue .not left
    have pushed : step.1.deferred = some a := same ▸ rfl
    refine ⟨waiting, by rw [pushed, waits]; rfl, slots, active waiting, fun d named => ?_⟩
    cases pushed.symm.trans named
    exact ⟨_, waiting, slotted.active a (c.waiting?_eq_some.mp waits).1⟩

/-- A verdict leaves nothing deferred, and nothing that waits. -/
theorem verdict (slotted : c.Slotted) {r : Record} (judged : r.operation.operator? = none)
    (v : Status) :
    let c' := ((c.add r).resolve c.result.trace.length v).1
    c'.waiting? = none ∧ c'.deferred = none ∧ c'.Slotted := by
  intro c'
  obtain ⟨_, active, deferred, entries⟩ := c.resolve_add judged v
  have length : c.result.trace.length = (c.settled v).1.length := (c.length_settled v).symm
  have waits : c'.waiting? = none := waiting?_of_last entries (active.trans (by rw [length])) judged
  have empty : c'.deferred = none := by
    rw [deferred]
    cases pushed : c.deferred with
    | none => simp
    | some d =>
        obtain ⟨a, waiting, _⟩ := slotted.waits d pushed
        obtain ⟨s, op, at_d, _, operator⟩ := slotted.slots d pushed
        have named := c.deferred?_eq_some.mpr ⟨pushed, s, at_d, operator⟩
        simp [waiting, named]
  refine ⟨waits, empty, slots_none empty, fun a named => ?_, fun d named => ?_⟩
  · cases active.symm.trans named
    rw [entries, length]
    simp
  · cases empty.symm.trans named

/-- What is to the left of the next operator after a verdict is resolved. -/
theorem concluded (slotted : c.Slotted) {r : Record} (judged : r.operation.operator? = none)
    {v : Status} (resolved : v ≠ .notImplemented) :
    ((c.add r).resolve c.result.trace.length v).1.Concluded := by
  obtain ⟨_, active, _, entries⟩ := c.resolve_add judged v
  refine ⟨(slotted.verdict judged v).2.1, c.result.trace.length, ?_⟩
  have last := congrArg (·[c.result.trace.length]?) entries
  simp only [getElem?_entries] at last
  rw [← c.length_settled v, List.getElem?_concat_length, length_settled] at last
  obtain ⟨found, at_last, same⟩ := Option.map_eq_some_iff.mp last
  refine ⟨found, active, at_last, ?_⟩
  have status : found.status = (c.settled v).2 := congrArg Record.status same
  rw [Record.isResolved, status]
  exact bne_iff_ne.mpr (c.settled_resolved resolved)

/-- The chain around a group is found again with its slots, as its records have been kept. -/
theorem resume {outer inner : Clause} (slotted : outer.Slotted)
    (inside : Lasts outer.openGroup inner) (depth : Nat) :
    let c := Clause.resume outer { inner with depth }
    (∀ j < outer.entries.length, c.entries[j]? = outer.entries[j]?) ∧
      c.waiting? = outer.waiting? ∧ c.Slotted := by
  intro c
  have keeps := inside.keeps outer.entries.length (.openGroup (Nat.le_refl _))
  have kept (j : Nat) (before : j < outer.entries.length) :
      c.entries[j]? = outer.entries[j]? :=
    (keeps.kept j before).trans (getElem?_openGroup before)
  exact ⟨kept, slotted.kept (inside.resume slotted.slots) rfl rfl keeps.above.length kept⟩

end Slotted

theorem slotted_openGroup (c : Clause) : c.openGroup.Slotted where
  slots := c.settles_openGroup.1
  active := nofun
  waits := nofun

/-- Verdicts last, and the slots name what they are for. -/
structure KeepsSlots (c c' : Clause) : Prop where
  lasts : Lasts c c'
  slotted : c.Slotted → c'.Slotted

theorem keepsSlots_evolution : Evolution KeepsSlots where
  refl c := ⟨lasts_evolution.refl c, id⟩
  trans first second :=
    ⟨lasts_evolution.trans first.lasts second.lasts, second.slotted ∘ first.slotted⟩
  issue issued := ⟨lasts_evolution.issue issued, fun slotted => (slotted.issued issued).2.2⟩
  setSubject c call captured v := ⟨lasts_evolution.setSubject c call captured v, fun slotted =>
    (slotted.append (c.entries_setSubject _ captured v) (by simp) (by simp)).2⟩
  restoreTo c v := ⟨lasts_evolution.restoreTo c v, fun ⟨slots, active, waits⟩ =>
    ⟨slots, active, waits⟩⟩
  judge c m captured matched := ⟨lasts_evolution.judge c m captured matched, fun slotted =>
    (slotted.verdict (by cases m <;> rfl) _).2.2⟩
  abort c call role text captured := ⟨lasts_evolution.abort c call role text captured,
    fun slotted => (slotted.append (c.entries_abort _ role text captured) rfl rfl).2⟩
  leaveGroup := by
    intro outer inner inside
    obtain ⟨slots, active, waits⟩ := inside.slotted outer.slotted_openGroup
    exact ⟨lasts_evolution.leaveGroup inside.lasts, fun _ => ⟨slots, active, waits⟩⟩
  closeGroup inside resolved := ⟨lasts_evolution.closeGroup inside.lasts resolved, fun slotted =>
    ((slotted.resume inside.lasts _).2.2.verdict rfl _).2.2⟩

end Clause

open Clause World

/-- Wherever code comes by from a new clause, its slots name what they are for. -/
theorem Code.slotted_visits {code : Code} {w w' : World} {i : Nat} {o : Options}
    (fresh : w.clause i = { options := o }) (visits : code.Visits w w') :
    (w'.clause i).Slotted :=
  (Code.evolves_visits keepsSlots_evolution
    (fun c => ⟨lasts_succession.opened c, fun _ => c.slotted_openGroup⟩) i visits).slotted
    (fresh ▸ slotted_new o)

/-- Whether there is a verdict at the end of a call that is given code. -/
def Call.judges : Call → Bool
  | .check _ | .logic _ => true
  | .that | .pick | .err => false

/-- A matcher or a group that returns has come to a verdict. -/
theorem World.perform_concluded {w w₁ : World} {i : Nat} {c : Call} {block : Value → Code}
    (slotted : (w.clause i).Slotted) (judges : c.judges = true)
    (called : w.perform i c (.code fun v => (block v).run) = (w₁, .ok ())) :
    (w₁.clause i).Concluded := by
  cases c with
  | that | pick | err => cases judges
  | check m =>
      obtain ⟨v, w₀, w', u, handed, ran⟩ := returned_ran called (by simp)
      have before := ((block v).evolves_run keepsSlots_evolution i w₀).slotted
      simp only [handed?] at handed
      split at handed
      · cases handed
      · cases handed
        obtain ⟨s, matched, same⟩ := check_judged (b := fun v => (block v).run) ran called
        rw [ran] at before
        rw [same]
        refine (before slotted).concluded (by cases m <;> rfl) ?_
        cases matched <;> simp [Status.ofMatch]
  | logic op =>
      obtain ⟨v, w₀, w', u, handed, ran⟩ := returned_ran called (by simp)
      obtain ⟨step, issued, opened, same⟩ := perform_group handed fun v => (block v).run
      have inside : KeepsSlots step.1.openGroup (w'.clause i) := by
        have evolved := (block v).evolves_run keepsSlots_evolution i w₀
        rwa [ran, Evolves, opened] at evolved
      rw [called, ran] at same
      have returned : (endGroup i op step.1 (w', .ok u)).2 = .ok () := by rw [← same]
      have closed := endGroup_returned returned
      rw [← same] at closed
      rw [closed]
      exact ((slotted.issued issued).2.2.resume inside.lasts _).2.2.concluded rfl
        (endGroup_resolved returned)

end Assay
