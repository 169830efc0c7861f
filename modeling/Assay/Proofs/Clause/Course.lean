import Assay.Proofs.Clause.Evolution

/-! # The course of a run

A run goes from place to place: each place is the code that is still to be run and the world it is
run in, also inside of the code that a call is given.  What is said of a whole run is often said of
the places it comes by, of the values its calls take snapshots of, or of how its calls have ended,
one after the other.
-/

namespace Assay

/-! ## What notes leave alone -/

namespace World

variable (w : World) (texts : List String)

@[simp] theorem memory_debug : (w.debug texts).memory = w.memory := by
  induction texts generalizing w with
  | nil => rfl
  | cons text rest ih => exact ih (w.note .debug .clause text)

@[simp] theorem facets_debug : (w.debug texts).facets = w.facets := by
  induction texts generalizing w with
  | nil => rfl
  | cons text rest ih => exact ih (w.note .debug .clause text)

@[simp] theorem clauses_debug : (w.debug texts).clauses = w.clauses := by
  induction texts generalizing w with
  | nil => rfl
  | cons text rest ih => exact ih (w.note .debug .clause text)

end World

theorem Outcome.returned {o : Outcome Unit} (ok : o.2.isOk = true) : o = (o.1, .ok ()) := by
  obtain ⟨w, _ | _⟩ := o
  · cases ok
  · rfl

/-! ## What a call takes a snapshot of -/

/-- The value of which a call takes a snapshot when its code has come to the given one. -/
def Call.kept? (x : Value) : Call → Option Value
  | .that | .pick | .check _ => some x
  | .err => some .null
  | .logic _ => none

/-- Whether a call lets pass what its code raises, and takes no snapshot of it. -/
def Call.passes (r : Raised) : Call → Bool
  | .logic _ => r.leavesGroups
  | _ => r.isInterrupt

namespace Clause

variable (c : Clause)

/-- What a clause captures of a value. -/
def picture (h : Heap) (v : Value) : Except Fault (Option Snapshot) :=
  if c.tracing then (h.snapshot v).map some else .ok none

/-- Memory after a clause has captured a value. -/
def remember (m : Memory) (v : Value) : Memory :=
  if c.tracing then (m.capture v).1 else m

@[simp] theorem remember_heap (m : Memory) (v : Value) : (c.remember m v).heap = m.heap := by
  unfold remember
  split <;> rfl

end Clause

namespace World

variable {α : Type}

/-- The world after a clause has captured a value. -/
def remembering (w : World) (i : Nat) (v : Value) : World :=
  { w with memory := (w.clause i).remember w.memory v }

@[simp] theorem clause_remembering (w : World) (i : Nat) (v : Value) (j : Nat) :
    (w.remembering i v).clause j = w.clause j := rfl

@[simp] theorem heap_remembering (w : World) (i : Nat) (v : Value) :
    (w.remembering i v).heap = w.heap := Clause.remember_heap _ _ _

theorem capture_eq (w : World) (i : Nat) (v : Value) :
    w.capture i v = (w.remembering i v, (w.clause i).picture w.heap v) := by
  unfold capture remembering Clause.remember Clause.picture
  split <;> rfl

theorem abort_raises (w : World) {w₁ : World} {i : Nat} {o : Operation} {role : Role} {a : Address}
    {x : α} : (w.abort i o role a : Outcome α) ≠ (w₁, .ok x) := by
  unfold abort
  intro ended
  split at ended
  · cases ended
  · split at ended <;> cases ended

/-- A group call that returns has closed its group. -/
theorem endGroup_returned {i : Nat} {owner : Operator} {outer : Clause} {o : Outcome Value}
    (returned : (endGroup i owner outer o).2 = .ok ()) : (endGroup i owner outer o).1.clause i =
      (Clause.closeGroup outer { o.1.clause i with depth := (o.1.clause i).depth - 1 }).1 := by
  unfold endGroup at returned ⊢
  dsimp only at returned ⊢
  split
  · rename_i r ended
    simp only [ended] at returned
    split at returned
    · cases returned
    · exact (abort_raises _ (Prod.ext rfl returned)).elim
  · rename_i ended
    simp only [ended] at returned
    split at returned
    · cases returned
    · rename_i resolved
      rw [if_neg resolved, clause_update_self]

/-- A group that is closed has no operator that is still open at its end. -/
theorem endGroup_resolved {i : Nat} {owner : Operator} {outer : Clause} {o : Outcome Value}
    (returned : (endGroup i owner outer o).2 = .ok ()) :
    (o.1.clause i).result.status ≠ .notImplemented := by
  intro unresolved
  unfold endGroup at returned
  dsimp only at returned
  split at returned
  · split at returned
    · cases returned
    · exact abort_raises _ (Prod.ext rfl returned)
  · rw [if_pos unresolved] at returned
    cases returned

/-- An abort, once its text is told and its exception is captured. -/
theorem abort_captured {w : World} {i : Nat} {a : Address} {text : String}
    {s : Option Snapshot} (told : w.heap.errorText (.ref a) = .ok text)
    (taken : (w.clause i).picture w.heap (.ref a) = .ok s) (o : Operation) (role : Role) :
    (w.abort i o role a : Outcome α) =
      (((w.remembering i (.ref a)).setClause i ((w.clause i).abort o role text s)).note .info
        .clause (abortMessage o text)).raiseOwn Standard.clauseAborted (abortMessage o text)
        [("operation", .member (Standard.operationMember o)), ("error", .ref a)]
        (.aborted · o (w.heap.object a).cls text) := by
  have kept : (w.remembering i (.ref a)).heap = w.heap := heap_remembering _ _ _
  rw [← kept]
  simp only [abort, told, capture_eq, taken]
  rfl

/-- What code produces is what it comes to. -/
theorem produce_ok {w w₁ : World} {i : Nat} {o : Operation} {role : Role} {b : Block} {v x : Value}
    (ended : w.produce i o role (.code b) v = (w₁, .ok x)) : b v w = (w₁, .ok x) := by
  simp only [produce, Argument.block?] at ended
  split at ended
  · rename_i ran
    rwa [ran]
  · split at ended
    · cases ended
    · exact absurd ended (abort_raises _)

/-- A matcher that returns has judged what the code it was given came to. -/
theorem check_judged {w w₀ w₁ : World} {i : Nat} {m : Matcher} {b : Block} {u : Value}
    (ran : b .null w = (w₀, .ok u)) (called : w.perform i (.check m) (.code b) = (w₁, .ok ())) :
    ∃ s matched, w₁.clause i = ((w₀.clause i).judge m s matched).1 := by
  have kept := clause_capture w₀ i u i
  simp only [perform, produce, Argument.block?, ran, Outcome.andThen] at called
  split at called
  · cases called
  · unfold judge at called
    split at called
    · exact (abort_raises _ called).elim
    · split at called
      · cases called
      · rename_i matched _ _ _ s taken
        rw [taken] at kept
        cases called
        exact ⟨s, matched, by rw [clause_update_self, kept]⟩

/-- A call that returns has run its code to the end, unless it is an `err`. -/
theorem returned_ran {w w₁ : World} {i : Nat} {b : Block} {call : Call}
    (called : w.perform i call (.code b) = (w₁, .ok ())) (guards : call ≠ .err) :
    ∃ v w₀ w' u, w.handed? i call = some (v, w₀) ∧ b v w₀ = (w', .ok u) := by
  have ended {o : Operation} {role : Role} {v : Value} {next : World → Value → Outcome Unit}
      (through : (w.produce i o role (.code b) v).andThen next = (w₁, .ok ())) :
      ∃ w' u, b v w = (w', .ok u) := by
    rcases made : w.produce i o role (.code b) v with ⟨w', r | u⟩
    · simp [made, Outcome.andThen] at through
    · exact ⟨w', u, produce_ok made⟩
  cases call with
  | err => exact absurd rfl guards
  | that =>
      obtain ⟨w', u, ran⟩ := ended called
      exact ⟨_, _, w', u, rfl, ran⟩
  | pick =>
      cases present : (w.clause i).subject with
      | none =>
          simp only [perform, pick, present] at called
          cases called
      | some x =>
          simp only [perform, pick, present] at called
          obtain ⟨w', u, ran⟩ := ended called
          exact ⟨x, w, w', u, by simp [handed?, present], ran⟩
  | check m =>
      simp only [perform] at called
      split at called
      · cases called
      · rename_i present
        obtain ⟨w', u, ran⟩ := ended called
        exact ⟨.null, w, w', u, by simp [handed?, present], ran⟩
  | logic op =>
      cases issued : (w.clause i).addOperator op with
      | error m =>
          simp only [perform, logic, issued] at called
          cases called
      | ok step =>
          have handed : w.handed? i (.logic op) = some (.null,
              (w.update i step).setClause i ((w.update i step).clause i).openGroup) := by
            simp [handed?, issued]
          obtain ⟨step', _, _, same⟩ := perform_group handed b
          rcases ran : b .null ((w.update i step).setClause i
            ((w.update i step).clause i).openGroup) with ⟨w', r | u⟩
          · rw [same, ran] at called
            simp only [endGroup] at called
            split at called
            · cases called
            · exact absurd called (abort_raises _)
          · exact ⟨_, _, w', u, handed, ran⟩

/-- In a call on a clause a snapshot is taken of a value on a heap, if the clause takes any: of what
    its code comes to, of what its code raises, or of the fault of a comparison. -/
inductive Shown (w : World) (i : Nat) (call : Call) (block : Block) : Heap → Value → Prop where
  | value {v w₀ w₁ x y} : w.handed? i call = some (v, w₀) → block v w₀ = (w₁, .ok x) →
      call.kept? x = some y → Shown w i call block w₁.heap y
  | error {v w₀ w₁ r} : w.handed? i call = some (v, w₀) → block v w₀ = (w₁, .error r) →
      call.passes r = false → Shown w i call block w₁.heap (.ref r.address)
  | fault {m v w₀ w₁ x f} : call = .check m → w.handed? i call = some (v, w₀) →
      block v w₀ = (w₁, .ok x) →
      compare w₁.heap m ((w₁.clause i).subject.getD .null) x = .error f →
      Shown w i call block (w₁.heap.raise f).1 (.ref (w₁.heap.raise f).2)

end World

/-- A call on the clause of a number, and how it has ended. -/
abbrev Event := Nat × Call × Except Raised Unit

/-- What happens within a call, given what happens in the runs of the code it is passed. -/
def World.within (w : World) (i : Nat) (c : Call) (given : Given)
    (inner : Value → World → List Event) : List Event :=
  match given, w.handed? i c with
  | .code, some (v, w₀) => inner v w₀
  | _, _ => []

namespace Code

/-! ## Places of a run -/

/-- Code, run from one world, comes to a place: some code that it goes on with in some world. -/
inductive Reaches : Code → World → Code → World → Prop where
  | here {code w} : Reaches code w code w
  | load {next w k w'} : Reaches (next w.memory) w k w' → Reaches (.load next) w k w'
  | save {m next w k w'} : Reaches next { w with memory := m } k w' → Reaches (.save m next) w k w'
  | inside {i c block next rescue w v w₀ k w'} : w.handed? i c = some (v, w₀) →
      Reaches (block v) w₀ k w' → Reaches (.call i c .code block next rescue) w k w'
  | returned {i c given block next rescue w w₁ k w'} :
      w.perform i c (given.argument fun subject => (block subject).run) = (w₁, .ok ()) →
      Reaches next w₁ k w' → Reaches (.call i c given block next rescue) w k w'
  | raised {i c given block next rescue w w₁ r k w'} :
      w.perform i c (given.argument fun subject => (block subject).run) = (w₁, .error r) →
      Reaches (rescue r) w₁ k w' → Reaches (.call i c given block next rescue) w k w'
  | registered {facet name next rescue w w₁ i k w'} : w.register facet name = (w₁, .ok i) →
      Reaches (next i) w₁ k w' → Reaches (.register facet name next rescue) w k w'
  | refused {facet name next rescue w w₁ r k w'} : w.register facet name = (w₁, .error r) →
      Reaches (rescue r) w₁ k w' → Reaches (.register facet name next rescue) w k w'

theorem Reaches.trans {code k k₁ : Code} {w w₁ w₂ : World} (first : Reaches code w k w₁)
    (second : Reaches k w₁ k₁ w₂) : Reaches code w k₁ w₂ := by
  induction first with
  | here => exact second
  | load _ ih => exact .load (ih second)
  | save _ ih => exact .save (ih second)
  | inside handed _ ih => exact .inside handed (ih second)
  | returned called _ ih => exact .returned called (ih second)
  | raised called _ ih => exact .raised called (ih second)
  | registered made _ ih => exact .registered made (ih second)
  | refused made _ ih => exact .refused made (ih second)

/-- What is run at a place of a run comes by worlds that the whole run comes by. -/
theorem Reaches.visits {code k : Code} {w w₁ x : World} (reached : Reaches code w k w₁)
    (visits : Visits k w₁ x) : Visits code w x := by
  induction reached with
  | here => exact visits
  | load _ ih => exact .load (ih visits)
  | save _ ih => exact .save (ih visits)
  | inside handed _ ih => exact .inside handed (ih visits)
  | returned called _ ih => exact .returned called (ih visits)
  | raised called _ ih => exact .raised called (ih visits)
  | registered made _ ih => exact .registered made (ih visits)
  | refused made _ ih => exact .refused made (ih visits)

/-- In its run code takes a snapshot of a value on a heap, if the clause that is called takes
    any. -/
def Shows (code : Code) (w : World) (h : Heap) (v : Value) : Prop :=
  ∃ i c block next rescue w', Reaches code w (.call i c .code block next rescue) w' ∧
    w'.Shown i c (fun subject => (block subject).run) h v

/-- What is shown at a place of a run is shown in the run. -/
theorem Shows.before {code k : Code} {w w₁ : World} {h : Heap} {v : Value}
    (reaches : Reaches code w k w₁) (shows' : k.Shows w₁ h v) : code.Shows w h v := by
  obtain ⟨i, c, block, next, rescue, w', after, shown⟩ := shows'
  exact ⟨i, c, block, next, rescue, w', reaches.trans after, shown⟩

/-- The calls of a run in the order in which they end, and how they end. -/
def history : Code → World → List Event
  | .give _, _ | .fail _, _ => []
  | .load next, w => (next w.memory).history w
  | .save m next, w => next.history { w with memory := m }
  | .call i c given block next rescue, w =>
    let inner := w.within i c given fun v => (block v).history
    match w.perform i c (given.argument fun subject => (block subject).run) with
    | (w, .ok u) => inner ++ (i, c, .ok u) :: next.history w
    | (w, .error r) => inner ++ (i, c, .error r) :: (rescue r).history w
  | .register facet name next rescue, w =>
    match w.register facet name with
    | (w, .ok i) => (next i).history w
    | (w, .error r) => (rescue r).history w

end Code

/-! ## Evolution as such -/

/-- One state of a clause has come of another: every relation that the steps of a clause keep
    holds between them. -/
def Evolved (c c' : Clause) : Prop := ∀ R, Evolution R → R c c'

theorem evolved_evolution : Evolution Evolved where
  refl c _ ev := ev.refl c
  trans first second R ev := ev.trans (first R ev) (second R ev)
  issue issued _ ev := ev.issue issued
  setSubject c call captured v _ ev := ev.setSubject c call captured v
  restoreTo c v _ ev := ev.restoreTo c v
  judge c m captured matched _ ev := ev.judge c m captured matched
  abort c call role text captured _ ev := ev.abort c call role text captured
  leaveGroup inside R ev := ev.leaveGroup (inside R ev)
  closeGroup inside resolved R ev := ev.closeGroup (inside R ev) resolved

end Assay
