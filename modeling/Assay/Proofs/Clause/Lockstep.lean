import Assay.Proofs.Clause.Course

/-! # Two runs in lockstep

Two runs of the same calls from two worlds stay side by side if each step of a clause keeps a
relation between the states that the clause has in the two worlds, and if memory stays related.
Then their calls end in the same way one after the other, and what is raised is the same.

Which values snapshots are taken of can be restricted, so that a relation need only be kept by the
steps of runs that take no others.
-/

namespace Assay

/-- Two clauses have captured a value, each as it does. -/
def Pictured (P : Heap → Value → Prop) (c c' : Clause) (v : Value) (s s' : Option Snapshot) :
    Prop :=
  ∃ h, P h v ∧ c.picture h v = .ok s ∧ c'.picture h v = .ok s'

/-- Two states that capture alike have captured the same. -/
theorem Pictured.eq_of_picture {P : Heap → Value → Prop} {c c' : Clause} {v : Value}
    {s s' : Option Snapshot} (pictured : Pictured P c c' v s s')
    (same : ∀ h, c'.picture h v = c.picture h v) : s' = s := by
  obtain ⟨h, _, first, second⟩ := pictured
  rw [same h, first] at second
  exact (Except.ok.inj second).symm

/-- What the steps of a clause keep when they are made on two states of it side by side, as long as
    snapshots are taken of values of one kind only.  The two ways out of a group start from states
    that its block has led to from the opened groups. -/
structure Paired (M : Memory → Memory → Prop) (P : Heap → Value → Prop)
    (R : Clause → Clause → Prop) : Prop where
  subject : ∀ {c c'}, R c c' → c'.subject = c.subject
  status : ∀ {c c'}, R c c' → c'.result.status = c.result.status
  remember : ∀ {m m' c c'} (v : Value), M m m' → R c c' → M (c.remember m v) (c'.remember m' v)
  picture : ∀ {c c' h v}, R c c' → P h v →
    (∃ f, c.picture h v = .error f ∧ c'.picture h v = .error f) ∨
      ∃ s s', c.picture h v = .ok s ∧ c'.picture h v = .ok s'
  issue : ∀ {c c'} (op : Operator), R c c' →
    (∃ m, c.addOperator op = .error m ∧ c'.addOperator op = .error m) ∨
      ∃ step step', c.addOperator op = .ok step ∧ c'.addOperator op = .ok step' ∧
        R step.1 step'.1
  setSubject : ∀ {c c' v s s'} (o : Operation), o ≠ .pick → R c c' → Pictured P c c' v s s' →
    R (c.setSubject o s v) (c'.setSubject o s' v)
  pick : ∀ {c c' v s s'} (x : Value), R c c' → Pictured P c c' v s s' →
    R { c.setSubject .pick s v with restore := some x }
      { c'.setSubject .pick s' v with restore := some x }
  judge : ∀ {c c' v s s'} (m : Matcher) (matched : Bool), R c c' → Pictured P c c' v s s' →
    R (c.judge m s matched).1 (c'.judge m s' matched).1
  abort : ∀ {c c' v s s'} (o : Operation) (role : Role) (text : String), R c c' →
    Pictured P c c' v s s' → R (c.abort o role text s) (c'.abort o role text s')
  openGroup : ∀ {c c'}, R c c' → R c.openGroup c'.openGroup
  leaveGroup : ∀ {outer outer' inner inner' : Clause}, R outer outer' → R inner inner' →
    Evolved outer.openGroup inner → Evolved outer'.openGroup inner' →
    R { inner with depth := inner.depth - 1 } { inner' with depth := inner'.depth - 1 }
  closeGroup : ∀ {outer outer' inner inner' : Clause}, R outer outer' → R inner inner' →
    Evolved outer.openGroup inner → Evolved outer'.openGroup inner' →
    inner.result.status ≠ .notImplemented →
    R (Clause.closeGroup outer { inner with depth := inner.depth - 1 }).1
      (Clause.closeGroup outer' { inner' with depth := inner'.depth - 1 }).1

/-- Steps on a state and itself come to one state. -/
theorem paired_same (P : Heap → Value → Prop) : Paired Eq P fun c c' => c' = c where
  subject same := by rw [same]
  status same := by rw [same]
  remember v memory same := by rw [memory, same]
  picture := by
    intro c c' h v same _
    rw [same]
    cases c.picture h v with
    | error f => exact .inl ⟨f, rfl, rfl⟩
    | ok s => exact .inr ⟨s, s, rfl, rfl⟩
  issue := by
    intro c c' op same
    rw [same]
    cases c.addOperator op with
    | error m => exact .inl ⟨m, rfl, rfl⟩
    | ok step => exact .inr ⟨step, step, rfl, rfl, rfl⟩
  setSubject o _ same pictured := by rw [same, pictured.eq_of_picture fun _ => by rw [same]]
  pick x same pictured := by rw [same, pictured.eq_of_picture fun _ => by rw [same]]
  judge m matched same pictured := by rw [same, pictured.eq_of_picture fun _ => by rw [same]]
  abort o role text same pictured := by rw [same, pictured.eq_of_picture fun _ => by rw [same]]
  openGroup same := by rw [same]
  leaveGroup _ inner _ _ := by rw [inner]
  closeGroup outer inner _ _ _ := by rw [outer, inner]

/-- A relation between memories that have the same heap, whatever that is. -/
structure OneHeap (M : Memory → Memory → Prop) : Prop where
  heap : ∀ {m m'}, M m m' → m'.heap = m.heap
  setHeap : ∀ {m m'} (h : Heap), M m m' → M { m with heap := h } { m' with heap := h }

theorem oneHeap_eq : OneHeap Eq where
  heap same := by rw [same]
  setHeap h same := by rw [same]

/-- A relation between memories and one between the two states of each clause, which calls keep. -/
structure Lockstep (M : Memory → Memory → Prop) (P : Heap → Value → Prop)
    (R : Nat → Clause → Clause → Prop) : Prop extends OneHeap M where
  steps : ∀ i, Paired M P (R i)

section

variable (M : Memory → Memory → Prop) (R : Nat → Clause → Clause → Prop)

/-- Two worlds that are side by side. -/
structure World.Abreast (w w' : World) : Prop where
  memory : M w.memory w'.memory
  facets : w'.facets = w.facets
  fresh : Entries.fresh w'.clauses = Entries.fresh w.clauses
  clauses : ∀ i, R i (w.clause i) (w'.clause i)

/-- Two outcomes that are side by side: they have ended in the same way. -/
structure Outcome.Abreast {α : Type} (o o' : Outcome α) : Prop where
  world : World.Abreast M R o.1 o'.1
  result : o'.2 = o.2

/-- Two programs that make the same calls, wherever the memories that they load are related. -/
inductive Code.Alike : Code → Code → Prop where
  | give {v} : Alike (.give v) (.give v)
  | fail {r} : Alike (.fail r) (.fail r)
  | load {next next'} : (∀ m m', M m m' → Alike (next m) (next' m')) →
      Alike (.load next) (.load next')
  | save {m m' next next'} : M m m' → Alike next next' → Alike (.save m next) (.save m' next')
  | call {i c given block block' next next' rescue rescue'} :
      (∀ v, Alike (block v) (block' v)) → Alike next next' →
      (∀ r, Alike (rescue r) (rescue' r)) →
      Alike (.call i c given block next rescue) (.call i c given block' next' rescue')
  | register {facet name next next' rescue rescue'} : (∀ i, Alike (next i) (next' i)) →
      (∀ r, Alike (rescue r) (rescue' r)) →
      Alike (.register facet name next rescue) (.register facet name next' rescue')

end

/-- Where memories are related only if they are one, every program makes the same calls. -/
theorem Code.alike_eq (code : Code) : code.Alike Eq code := by
  induction code with
  | give | fail => constructor
  | load next ih => exact .load fun m m' same => same ▸ ih m
  | save m next ih => exact .save rfl ih
  | call i c given block next rescue ihBlock ihNext ihRescue =>
      exact .call ihBlock ihNext ihRescue
  | register facet name next rescue ihNext ihRescue => exact .register ihNext ihRescue

open World

variable {M : Memory → Memory → Prop} {P : Heap → Value → Prop} {R : Nat → Clause → Clause → Prop}
  {α : Type}

namespace World.Abreast

variable {w w' : World} (abreast : Abreast M R w w')

include abreast

theorem setClause {i : Nat} {c c' : Clause} (related : R i c c') :
    Abreast M R (w.setClause i c) (w'.setClause i c') where
  memory := abreast.memory
  facets := abreast.facets
  fresh := by simp only [World.setClause, Entries.fresh_insert, abreast.fresh]
  clauses j := by
    by_cases same : i = j
    · subst same
      simpa using related
    · simpa only [clause_setClause_of_ne same] using abreast.clauses j

theorem note (level : Level) (channel : Channel) (text : String) :
    Abreast M R (w.note level channel text) (w'.note level channel text) :=
  ⟨abreast.memory, abreast.facets, abreast.fresh, abreast.clauses⟩

theorem debug (texts texts' : List String) : Abreast M R (w.debug texts) (w'.debug texts') :=
  ⟨by simpa using abreast.memory, by simpa using abreast.facets, by simpa using abreast.fresh,
    fun i => by simpa using abreast.clauses i⟩

theorem update {i : Nat} {step step' : Clause × List String} (related : R i step.1 step'.1) :
    Abreast M R (w.update i step) (w'.update i step') :=
  (abreast.setClause related).debug step.2 step'.2

end World.Abreast

namespace OneHeap

variable (one : OneHeap M) {w w' : World} (abreast : Abreast M R w w')

include one abreast

/-! ## What is raised -/

theorem heap_eq : w'.heap = w.heap := one.heap abreast.memory

theorem abreast_setHeap (h : Heap) : Abreast M R (w.setHeap h) (w'.setHeap h) :=
  ⟨one.setHeap h abreast.memory, abreast.facets, abreast.fresh, abreast.clauses⟩

theorem raise (f : Fault) : Outcome.Abreast M R (w.raise f : Outcome α) (w'.raise f) := by
  simp only [World.raise, one.heap_eq abreast]
  exact ⟨one.abreast_setHeap abreast _, rfl⟩

theorem raiseOwn (cls : ClassName) (message : String) (attrs : List (String × Value))
    (raised : Address → Raised) : Outcome.Abreast M R
      (w.raiseOwn cls message attrs raised : Outcome α) (w'.raiseOwn cls message attrs raised) := by
  simp only [World.raiseOwn, one.heap_eq abreast]
  exact ⟨one.abreast_setHeap abreast _, rfl⟩

theorem misuse (m : Misuse) : Outcome.Abreast M R (w.misuse m : Outcome α) (w'.misuse m) :=
  one.raiseOwn abreast _ _ _ _

/-- Aborts end side by side if their exceptions are captured side by side. -/
theorem abort {i : Nat} {a : Address}
    (captured : Abreast M R (w.remembering i (.ref a)) (w'.remembering i (.ref a)))
    (o : Operation) (role : Role)
    (taken : (∃ f, (w.clause i).picture w.heap (.ref a) = .error f ∧
        (w'.clause i).picture w'.heap (.ref a) = .error f) ∨
      ∃ s s', (w.clause i).picture w.heap (.ref a) = .ok s ∧
        (w'.clause i).picture w'.heap (.ref a) = .ok s' ∧
        ∀ text, R i ((w.clause i).abort o role text s) ((w'.clause i).abort o role text s')) :
    Outcome.Abreast M R (w.abort i o role a : Outcome α) (w'.abort i o role a) := by
  have heap := one.heap_eq abreast
  cases told : w.heap.errorText (.ref a) with
  | error f =>
      simp only [World.abort, told, heap]
      exact one.raise abreast f
  | ok text =>
      rcases taken with ⟨f, left, right⟩ | ⟨s, s', left, right, related⟩
      · simp only [World.abort, told, heap ▸ told, capture_eq, left, right]
        exact one.raise captured f
      · rw [abort_captured told left, abort_captured (heap ▸ told) right, heap]
        exact one.raiseOwn ((captured.setClause (related text)).note _ _ _) _ _ _ _

end OneHeap

namespace Lockstep

variable (lock : Lockstep M P R) {w w' : World} (abreast : Abreast M R w w')

include lock abreast

/-! ## Steps of a call -/

theorem abreast_remembering (i : Nat) (v : Value) :
    Abreast M R (w.remembering i v) (w'.remembering i v) :=
  ⟨(lock.steps i).remember v abreast.memory (abreast.clauses i), abreast.facets, abreast.fresh,
    abreast.clauses⟩

theorem abreast_abort (i : Nat) (o : Operation) (role : Role) (a : Address)
    (shown : P w.heap (.ref a)) :
    Outcome.Abreast M R (w.abort i o role a : Outcome α) (w'.abort i o role a) := by
  refine lock.abort abreast (lock.abreast_remembering abreast i _) o role ?_
  rw [lock.heap_eq abreast]
  rcases (lock.steps i).picture (abreast.clauses i) shown with refused | ⟨s, s', left, right⟩
  · exact .inl refused
  · exact .inr ⟨s, s', left, right, fun text =>
      (lock.steps i).abort o role text (abreast.clauses i) ⟨w.heap, shown, left, right⟩⟩

theorem abreast_setSubject (i : Nat) {o : Operation} (sets : o ≠ .pick) (v : Value)
    (shown : P w.heap v) : Outcome.Abreast M R (w.setSubject i o v) (w'.setSubject i o v) := by
  have heap := lock.heap_eq abreast
  have captured := lock.abreast_remembering abreast i v
  rcases (lock.steps i).picture (abreast.clauses i) shown with
    ⟨f, left, right⟩ | ⟨s, s', left, right⟩
  · simp only [World.setSubject, heap, capture_eq, left, right]
    exact lock.raise captured f
  · simp only [World.setSubject, heap, capture_eq, left, right]
    exact ⟨captured.setClause
      ((lock.steps i).setSubject o sets (abreast.clauses i) ⟨w.heap, shown, left, right⟩), rfl⟩

end Lockstep

/-! ## Calls -/

theorem Outcome.Abreast.andThen {β : Type} {o o' : Outcome α} {next next' : World → α → Outcome β}
    (first : Outcome.Abreast M R o o')
    (rest : ∀ w w' x, o = (w, .ok x) → World.Abreast M R w w' →
      Outcome.Abreast M R (next w x) (next' w' x)) :
    Outcome.Abreast M R (o.andThen next) (o'.andThen next') := by
  obtain ⟨w, result⟩ := o
  obtain ⟨w', result'⟩ := o'
  obtain ⟨abreast, same⟩ := first
  cases same
  cases result with
  | error r => exact ⟨abreast, rfl⟩
  | ok x => exact rest w w' x rfl abreast

namespace Lockstep

variable (lock : Lockstep M P R) {w w' : World} {i : Nat} {b b' : Block} {v : Value}

include lock

theorem abreast_produce (ran : Outcome.Abreast M R (b v w) (b' v w')) (o : Operation) (role : Role)
    (shown : ∀ w₁ r, b v w = (w₁, .error r) → r.isInterrupt = false →
      P w₁.heap (.ref r.address)) :
    Outcome.Abreast M R (w.produce i o role (.code b) v) (w'.produce i o role (.code b') v) := by
  cases left : b v w with
  | mk w₁ result =>
      cases right : b' v w' with
      | mk w₁' result' =>
          rw [left, right] at ran
          cases ran.result
          simp only [produce, Argument.block?, left, right]
          cases result with
          | ok x => exact ran
          | error r =>
              by_cases passes : r.isInterrupt
              · simp only [passes, if_true]
                exact ran
              · simp only [passes, Bool.false_eq_true, if_false]
                exact lock.abreast_abort ran.world i o role _
                  (shown w₁ r left (by simpa using passes))

theorem abreast_judge (abreast : Abreast M R w w') (m : Matcher) (x : Value) (shown : P w.heap x)
    (faulted : ∀ f, compare w.heap m ((w.clause i).subject.getD .null) x = .error f →
      P (w.heap.raise f).1 (.ref (w.heap.raise f).2)) :
    Outcome.Abreast M R (w.judge i m x) (w'.judge i m x) := by
  have heap := lock.heap_eq abreast
  have subject := (lock.steps i).subject (abreast.clauses i)
  cases found : compare w.heap m ((w.clause i).subject.getD .null) x with
  | error f =>
      simp only [World.judge, heap, subject, found]
      exact lock.abreast_abort (lock.abreast_setHeap abreast _) i _ _ _ (faulted f found)
  | ok matched =>
      have captured := lock.abreast_remembering abreast i x
      rcases (lock.steps i).picture (abreast.clauses i) shown with
        ⟨f, left, right⟩ | ⟨s, s', left, right⟩
      · simp only [World.judge, heap, subject, found, capture_eq, left, right]
        exact lock.raise captured f
      · simp only [World.judge, heap, subject, found, capture_eq, left, right]
        exact ⟨captured.update
          ((lock.steps i).judge m matched (abreast.clauses i) ⟨w.heap, shown, left, right⟩), rfl⟩

/-- A `pick` sets the subject and remembers the one before in one go. -/
theorem abreast_picked (abreast : Abreast M R w w') (x subject : Value) (shown : P w.heap x) :
    Outcome.Abreast M R
      ((w.setSubject i .pick x).andThen fun w _ =>
        (w.setClause i { w.clause i with restore := some subject }, .ok ()))
      ((w'.setSubject i .pick x).andThen fun w _ =>
        (w.setClause i { w.clause i with restore := some subject }, .ok ())) := by
  have heap := lock.heap_eq abreast
  have captured := lock.abreast_remembering abreast i x
  rcases (lock.steps i).picture (abreast.clauses i) shown with
    ⟨f, left, right⟩ | ⟨s, s', left, right⟩
  · simp only [World.setSubject, heap, capture_eq, left, right, Outcome.andThen]
    exact lock.raise captured f
  · have picked := (lock.steps i).pick subject (abreast.clauses i) ⟨w.heap, shown, left, right⟩
    simp only [World.setSubject, heap, capture_eq, left, right, Outcome.andThen,
      clause_remembering, clause_setClause_self]
    have once (w : World) (c c' : Clause) :
        (w.setClause i c).setClause i c' = w.setClause i c' := by
      simp only [World.setClause, Entries.insert_insert]
    rw [once, once]
    exact ⟨captured.setClause picked, rfl⟩

/-- Taking what code raises for the subject, or null where it raises nothing. -/
theorem abreast_catchError (ran : Outcome.Abreast M R (b .null w) (b' .null w'))
    (value : ∀ w₁ x, b .null w = (w₁, .ok x) → P w₁.heap .null)
    (error : ∀ w₁ r, b .null w = (w₁, .error r) → r.isInterrupt = false →
      P w₁.heap (.ref r.address)) :
    Outcome.Abreast M R (w.catchError i (.code b)) (w'.catchError i (.code b')) := by
  cases left : b .null w with
  | mk w₁ result =>
      cases right : b' .null w' with
      | mk w₁' result' =>
          rw [left, right] at ran
          cases ran.result
          simp only [catchError, Argument.block?, left, right]
          cases result with
          | ok x => exact lock.abreast_setSubject ran.world i (by simp) _ (value w₁ x left)
          | error r =>
              by_cases passes : r.isInterrupt
              · simp only [passes, if_true]
                exact ⟨ran.world, rfl⟩
              · simp only [passes, Bool.false_eq_true, if_false, lock.heap_eq ran.world]
                have shown := error w₁ r left (by simpa using passes)
                cases w₁.heap.errorText (.ref r.address) with
                | error f => exact lock.raise ran.world f
                | ok text =>
                    have noted := ran.world.debug [s!"err captured {text}"]
                      [s!"err captured {text}"]
                    exact lock.abreast_setSubject noted i (by simp) _ shown

theorem abreast_endGroup {outer outer' : Clause} {o o' : Outcome Value}
    (related : R i outer outer') (ran : Outcome.Abreast M R o o')
    (evolved : Evolved outer.openGroup (o.1.clause i))
    (evolved' : Evolved outer'.openGroup (o'.1.clause i)) (owner : Operator)
    (shown : ∀ r, o.2 = .error r → r.leavesGroups = false → P o.1.heap (.ref r.address)) :
    Outcome.Abreast M R (endGroup i owner outer o) (endGroup i owner outer' o') := by
  obtain ⟨w, result⟩ := o
  obtain ⟨w', result'⟩ := o'
  obtain ⟨abreast, same⟩ := ran
  cases same
  have inner := abreast.clauses i
  have left := abreast.setClause ((lock.steps i).leaveGroup related inner evolved evolved')
  cases result with
  | error r =>
      simp only [endGroup]
      by_cases passes : r.leavesGroups
      · simp only [passes, if_true]
        exact ⟨left, rfl⟩
      · simp only [passes, Bool.false_eq_true, if_false]
        exact lock.abreast_abort left i _ _ _ (shown r rfl (by simpa using passes))
  | ok x =>
      simp only [endGroup, (lock.steps i).status inner]
      by_cases waits : (w.clause i).result.status = .notImplemented
      · simp only [waits, if_true]
        exact lock.misuse left _
      · simp only [waits, if_false]
        exact ⟨left.update ((lock.steps i).closeGroup related inner evolved evolved' waits), rfl⟩

/-- The code of two calls finds worlds that are side by side, or none of the two runs any. -/
theorem handed_abreast (abreast : Abreast M R w w') (i : Nat) (call : Call) :
    (w.handed? i call = none ∧ w'.handed? i call = none) ∨
      ∃ v w₀ w₀', w.handed? i call = some (v, w₀) ∧ w'.handed? i call = some (v, w₀') ∧
        Abreast M R w₀ w₀' := by
  have subject := (lock.steps i).subject (abreast.clauses i)
  cases call with
  | that | err => exact .inr ⟨_, _, _, rfl, rfl, abreast⟩
  | pick =>
      cases present : (w.clause i).subject with
      | none => exact .inl (by simp [handed?, subject, present])
      | some x => exact .inr ⟨x, w, w', by simp [handed?, present],
          by simp [handed?, subject, present], abreast⟩
  | check m =>
      cases present : (w.clause i).subject with
      | none => exact .inl (by simp [handed?, subject, present])
      | some x => exact .inr ⟨.null, w, w', by simp [handed?, present],
          by simp [handed?, subject, present], abreast⟩
  | logic op =>
      rcases (lock.steps i).issue op (abreast.clauses i) with
        ⟨m, left, right⟩ | ⟨s, s', left, right, related⟩
      · exact .inl (by simp [handed?, left, right])
      · have issued := abreast.update related
        exact .inr ⟨.null, _, _, by simp only [handed?, left], by simp only [handed?, right],
          issued.setClause ((lock.steps i).openGroup (issued.clauses i))⟩

/-- A call that is given no code is refused in both worlds, unless it is an operator alone. -/
theorem abreast_refused (abreast : Abreast M R w w') (i : Nat) (call : Call) {arg : Argument}
    {type : ClassName} (uncallable : arg.block? = .error type) :
    Outcome.Abreast M R (w.perform i call arg) (w'.perform i call arg) := by
  have subject := (lock.steps i).subject (abreast.clauses i)
  have refused (o : Operation) (next next' : World → Value → Outcome Unit) :
      Outcome.Abreast M R ((w.misuse (.notCallable o type)).andThen next)
        ((w'.misuse (.notCallable o type)).andThen next') :=
    (lock.misuse abreast _).andThen fun _ _ _ ended => by cases ended
  cases call with
  | that =>
      simp only [perform, produce, uncallable]
      exact refused _ _ _
  | err =>
      simp only [perform, catchError, uncallable]
      exact lock.misuse abreast _
  | pick =>
      simp only [perform, World.pick, subject]
      cases (w.clause i).subject with
      | none => exact lock.misuse abreast _
      | some x =>
          simp only [produce, uncallable]
          exact refused _ _ _
  | check m =>
      simp only [perform, subject]
      cases (w.clause i).subject with
      | none => exact lock.misuse abreast _
      | some x =>
          simp only [Option.isNone_some, Bool.false_eq_true, if_false, produce, uncallable]
          exact refused _ _ _
  | logic op =>
      rcases (lock.steps i).issue op (abreast.clauses i) with
        ⟨m, left, right⟩ | ⟨s, s', left, right, related⟩
      · simp only [perform, World.logic, left, right]
        exact lock.misuse abreast _
      · simp only [perform, World.logic, left, right]
        have issued := abreast.update related
        cases arg with
        | absent => exact ⟨issued, rfl⟩
        | plain type => exact lock.misuse issued _
        | code block => cases uncallable

/-- Two calls that are side by side end side by side if the code they are given does. -/
theorem abreast_perform (abreast : Abreast M R w w') (i : Nat) (call : Call)
    {block block' : Value → Code}
    (runs : ∀ v w₀ w₀', w.handed? i call = some (v, w₀) → Abreast M R w₀ w₀' →
      Outcome.Abreast M R ((block v).run w₀) ((block' v).run w₀'))
    (shown : ∀ h v, w.Shown i call (fun v => (block v).run) h v → P h v) :
    Outcome.Abreast M R (w.perform i call (.code fun v => (block v).run))
      (w'.perform i call (.code fun v => (block' v).run)) := by
  have subject := (lock.steps i).subject (abreast.clauses i)
  let b : Block := fun v => (block v).run
  let b' : Block := fun v => (block' v).run
  cases call with
  | that =>
      have ran : Outcome.Abreast M R (b .null w) (b' .null w') := runs _ _ _ rfl abreast
      have produced := lock.abreast_produce (i := i) ran .that .setter fun _ _ ran passes =>
          shown _ _ (.error rfl ran passes)
      exact produced.andThen fun _ _ x ended abreast =>
        lock.abreast_setSubject abreast i (by simp) x
          (shown _ _ (.value rfl (produce_ok ended) rfl))
  | err =>
      have ran : Outcome.Abreast M R (b .null w) (b' .null w') := runs _ _ _ rfl abreast
      exact lock.abreast_catchError ran
        (fun _ _ ran => shown _ _ (.value rfl ran rfl))
        fun _ _ ran passes => shown _ _ (.error rfl ran passes)
  | pick =>
      simp only [perform, World.pick, subject]
      cases present : (w.clause i).subject with
      | none => exact lock.misuse abreast _
      | some s =>
          have handed : w.handed? i .pick = some (s, w) := by simp [handed?, present]
          have ran : Outcome.Abreast M R (b s w) (b' s w') := runs _ _ _ handed abreast
          have produced := lock.abreast_produce (i := i) ran .pick .setter fun _ _ ran passes =>
              shown _ _ (.error handed ran passes)
          exact produced.andThen fun _ _ x ended abreast =>
            lock.abreast_picked abreast x s (shown _ _ (.value handed (produce_ok ended) rfl))
  | check m =>
      simp only [perform, subject]
      cases present : (w.clause i).subject with
      | none => exact lock.misuse abreast _
      | some s =>
          have handed : w.handed? i (.check m) = some (.null, w) := by simp [handed?, present]
          have ran : Outcome.Abreast M R (b .null w) (b' .null w') := runs _ _ _ handed abreast
          have produced := lock.abreast_produce (i := i) ran m.operation .matcher
            fun _ _ ran passes => shown _ _ (.error handed ran passes)
          exact produced.andThen fun _ _ x ended abreast =>
            lock.abreast_judge abreast m x (shown _ _ (.value handed (produce_ok ended) rfl))
              fun _ found => shown _ _ (.fault rfl handed (produce_ok ended) found)
  | logic op =>
      rcases (lock.steps i).issue op (abreast.clauses i) with
        ⟨m, left, right⟩ | ⟨s, s', left, right, related⟩
      · simp only [perform, World.logic, left, right]
        exact lock.misuse abreast _
      · have issued := abreast.update related
        have opened := issued.setClause ((lock.steps i).openGroup (issued.clauses i))
        have handed : w.handed? i (.logic op) = some (.null,
            (w.update i s).setClause i ((w.update i s).clause i).openGroup) := by
          simp only [handed?, left]
        have inside (code : Code) (w₁ : World) : Evolved (w₁.clause i).openGroup
            ((code.run (w₁.setClause i (w₁.clause i).openGroup)).1.clause i) := by
          have ran := code.evolves_run evolved_evolution i
            (w₁.setClause i (w₁.clause i).openGroup)
          simpa [Evolves] using ran
        simp only [perform, World.logic, left, right, group_code]
        exact lock.abreast_endGroup (issued.clauses i) (runs _ _ _ handed opened)
          (inside _ _) (inside _ _) op fun r ended passes =>
            shown _ _ (.error handed (Prod.ext rfl ended) passes)

/-! ## Programs -/

theorem abreast_register (abreast : Abreast M R w w') (facet : Nat) (name : Option TestName) :
    Outcome.Abreast M R (w.register facet name) (w'.register facet name) := by
  have same : w'.facet facet = w.facet facet := by rw [World.facet, World.facet, abreast.facets]
  have new (w : World) : w.clause (Entries.fresh w.clauses) = { options := w.options } := by
    simp [World.clause, Entries.lookup_fresh]
  have fresh := abreast.clauses (Entries.fresh w.clauses)
  rw [new, ← abreast.fresh, new] at fresh
  simp only [World.register, same, abreast.fresh]
  cases (w.facet facet).register name (Entries.fresh w.clauses) with
  | error d =>
      cases told : d.test.written d.message <;> simp only [told]
      · exact lock.raise abreast _
      · exact lock.raiseOwn abreast _ _ _ _
  | ok registered =>
      have entered : Abreast M R (w.setFacet facet registered.1) (w'.setFacet facet registered.1) :=
        ⟨abreast.memory, by simp only [World.setFacet, abreast.facets], abreast.fresh,
          abreast.clauses⟩
      have made := entered.setClause (abreast.fresh ▸ fresh)
      cases noted : registered.2.written ((w.facet facet).registerNote registered.2) <;>
        simp only [noted]
      · exact lock.raise made _
      · exact ⟨made.note _ _ _, rfl⟩

/-- A call ends the same way in two worlds that are side by side, whatever it is given. -/
theorem abreast_call (abreast : Abreast M R w w') (i : Nat) (call : Call) (given : Given)
    {block block' : Value → Code}
    (runs : ∀ v w₀ w₀', given = .code → w.handed? i call = some (v, w₀) → Abreast M R w₀ w₀' →
      Outcome.Abreast M R ((block v).run w₀) ((block' v).run w₀'))
    (shown : ∀ h v, given = .code → w.Shown i call (fun v => (block v).run) h v → P h v) :
    Outcome.Abreast M R (w.perform i call (given.argument fun v => (block v).run))
      (w'.perform i call (given.argument fun v => (block' v).run)) := by
  cases given with
  | absent => exact lock.abreast_refused abreast i call rfl
  | plain type => exact lock.abreast_refused abreast i call rfl
  | code =>
      exact lock.abreast_perform abreast i call (fun v w₀ w₀' => runs v w₀ w₀' rfl)
        fun h v => shown h v rfl

/-- Two programs that make the same calls stay side by side, and their calls end in the same way
    one after the other. -/
theorem run {code code' : Code} (alike : code.Alike M code') {w w' : World}
    (abreast : Abreast M R w w') (shown : ∀ h v, code.Shows w h v → P h v) :
    Outcome.Abreast M R (code.run w) (code'.run w') ∧ code'.history w' = code.history w := by
  induction alike generalizing w w' with
  | give | fail => exact ⟨⟨abreast, rfl⟩, rfl⟩
  | load _ ih =>
      exact ih _ _ abreast.memory abreast fun h v inside => shown h v (.before (.load .here) inside)
  | save related _ ih =>
      exact ih ⟨related, abreast.facets, abreast.fresh, abreast.clauses⟩ fun h v inside =>
        shown h v (.before (.save .here) inside)
  | @call i c given block block' next next' rescue rescue' _ _ _ ihBlock ihNext ihRescue =>
      have inner (v : Value) (w₀ w₀' : World) (passed : given = .code)
          (handed : w.handed? i c = some (v, w₀)) (abreast : Abreast M R w₀ w₀') :=
        ihBlock v abreast fun h x inside =>
          shown h x (.before (by subst passed; exact .inside handed .here) inside)
      have called := lock.abreast_call abreast i c given
        (fun v w₀ w₀' passed handed abreast => (inner v w₀ w₀' passed handed abreast).1)
        fun h v passed taken => shown h v (by
          subst passed
          exact ⟨i, c, block, next, rescue, w, .here, taken⟩)
      have insides : w'.within i c given (fun v => (block' v).history) =
          w.within i c given fun v => (block v).history := by
        cases given with
        | absent | plain type => rfl
        | code =>
            rcases lock.handed_abreast abreast i c with
              ⟨left, right⟩ | ⟨v, w₀, w₀', left, right, found⟩
            · simp only [World.within, left, right]
            · simp only [World.within, left, right]
              exact (inner v w₀ w₀' rfl left found).2
      cases left : w.perform i c (given.argument fun v => (block v).run) with
      | mk w₁ result =>
          cases right : w'.perform i c (given.argument fun v => (block' v).run) with
          | mk w₁' result' =>
              rw [left, right] at called
              cases called.result
              simp only [Code.run, Code.history, left, right, insides]
              cases result with
              | ok u =>
                  have rest := ihNext called.world fun h v inside =>
                    shown h v (.before (.returned left .here) inside)
                  exact ⟨rest.1, congrArg (_ ++ (i, c, .ok u) :: ·) rest.2⟩
              | error r =>
                  have rest := ihRescue r called.world fun h v inside =>
                    shown h v (.before (.raised left .here) inside)
                  exact ⟨rest.1, congrArg (_ ++ (i, c, .error r) :: ·) rest.2⟩
  | @register facet name next next' rescue rescue' _ _ ihNext ihRescue =>
      have made := lock.abreast_register abreast facet name
      cases left : w.register facet name with
      | mk w₁ result =>
          cases right : w'.register facet name with
          | mk w₁' result' =>
              rw [left, right] at made
              cases made.result
              simp only [Code.run, Code.history, left, right]
              cases result with
              | ok i =>
                  exact ihNext i made.world fun h v inside =>
                    shown h v (.before (.registered left .here) inside)
              | error r =>
                  exact ihRescue r made.world fun h v inside =>
                    shown h v (.before (.refused left .here) inside)

/-- A call of the one program ends side by side with that of the other. -/
theorem called {i : Nat} {c : Call} {given : Given} {block block' : Value → Code} {next : Code}
    {rescue : Raised → Code} (blocks : ∀ v, (block v).Alike M (block' v)) {w w' : World}
    (abreast : Abreast M R w w')
    (shown : ∀ h v, (Code.call i c given block next rescue).Shows w h v → P h v) :
    Outcome.Abreast M R (w.perform i c (given.argument fun v => (block v).run))
      (w'.perform i c (given.argument fun v => (block' v).run)) := by
  refine lock.abreast_call abreast i c given (fun v w₀ w₀' passed handed begun => ?_)
    fun h v passed taken => ?_
  · subst passed
    exact (lock.run (blocks v) begun fun h x inside =>
      shown h x (.before (.inside handed .here) inside)).1
  · subst passed
    exact shown h v ⟨i, c, block, next, rescue, w, .here, taken⟩

end Lockstep

end Assay
