import Assay.Proofs.Clause.Invariant
import Mathlib.Data.List.Induction

/-! # What explains a failure

A failure is explained by what the matcher at the fail point expected and by the subject.  A trace
does not say which subject that was; the explanation takes the one that was set last.  It is the
wrong one where a verdict has put back the subject that a `pick` had replaced, or where a call that
was to set the subject has raised.
-/

namespace Assay

/-! ## What a trace tells of the subject -/

/-- What a trace tells of the subject. -/
structure Bearing where
  /-- The snapshot of what was set last, as long as that is the subject. -/
  shown : Option Snapshot := none
  /-- A `pick` waits to be undone. -/
  picked : Bool := false
  /-- Whether a `pick` waits outside of the groups that are open, the innermost first. -/
  outside : List Bool := []

namespace Bearing

variable (b : Bearing)

/-- What a trace tells of the subject once a record is added.  A verdict undoes a `pick`; an
    exception neither sets a subject nor undoes one. -/
def after (r : Record) : Bearing :=
  match r.role, r.errorText, r.operation with
  | .setter, none, o => { b with shown := r.captured, picked := o = .pick }
  | .setter, some _, _ => { b with shown := none }
  | .matcher, none, _ => { b with shown := if b.picked then none else b.shown, picked := false }
  | .logic, none, .blockStart => { b with picked := false, outside := b.picked :: b.outside }
  -- A block that has raised has no end in the trace, so this may be the end of any open group.
  | .logic, none, .blockEnd =>
      { shown := if true ∈ b.outside then none else b.shown, outside := b.outside.tail }
  | _, _, _ => b

@[simp] theorem after_entered (r : Record) (i : Nat) : b.after (r.entered i) = b.after r := rfl

@[simp] theorem after_lasting (r : Record) : b.after r.lasting = b.after r := rfl

@[simp] theorem after_operator (op : Operator) (left : Option Status) :
    b.after (.logic (.logic op) left) = b := rfl

@[simp] theorem after_setter (o : Operation) (s : Option Snapshot) :
    b.after { Record.setter o with captured := s } =
      { b with shown := s, picked := o = .pick } := rfl

@[simp] theorem after_matcher (o : Operation) (s : Option Snapshot) :
    b.after { Record.matcher o with captured := s } =
      { b with shown := if b.picked then none else b.shown, picked := false } := rfl

@[simp] theorem after_exception (o : Operation) (role : Role) (text : String)
    (s : Option Snapshot) : b.after { Record.exception o role text with captured := s } =
      { b with shown := if role = .setter then none else b.shown } := by
  cases role <;> rfl

@[simp] theorem after_start (left : Option Status) : b.after (.logic .blockStart left) =
    { b with picked := false, outside := b.picked :: b.outside } := rfl

@[simp] theorem after_end (left : Option Status) : b.after (.logic .blockEnd left) =
    { shown := if true ∈ b.outside then none else b.shown, outside := b.outside.tail } := rfl

variable {b}

/-- What is shown after a record was shown by it, if that sets a subject, and before it if not. -/
theorem shown_after {r : Record} {S : Snapshot} (shown : (b.after r).shown = some S) :
    if r.role = .setter then r.captured = some S else b.shown = some S := by
  cases role : r.role with
  | setter =>
      cases text : r.errorText with
      | none => simpa [after, role, text] using shown
      | some error => simp [after, role, text] at shown
  | matcher =>
      cases text : r.errorText with
      | none =>
          cases picked : b.picked with
          | false => simpa [after, role, text, picked] using shown
          | true => simp [after, role, text, picked] at shown
      | some error => simpa [after, role, text] using shown
  | logic =>
      simp only [after, role] at shown
      split at shown <;> first | contradiction | simp_all

end Bearing

/-- What the records of a trace tell of the subject. -/
def bearing (rs : List Record) : Bearing := rs.foldl Bearing.after {}

theorem bearing_append (rs : List Record) (r : Record) :
    bearing (rs ++ [r]) = (bearing rs).after r := by
  simp [bearing]

theorem bearing_map_lasting (rs : List Record) : bearing (rs.map Record.lasting) = bearing rs := by
  simp [bearing, List.foldl_map]

/-- What a trace tells to be the subject is what was set last. -/
theorem bearing_shown {rs : List Record} {S : Snapshot} (shown : (bearing rs).shown = some S) :
    ∃ s, rs.reverse.find? (fun r => decide (r.role = .setter)) = some s ∧ s.captured = some S := by
  induction rs using List.reverseRecOn with
  | nil => cases shown
  | append_singleton rs r ih =>
      rw [bearing_append] at shown
      have last := Bearing.shown_after shown
      rw [List.reverse_append, List.reverse_singleton, List.singleton_append]
      split at last
      · rename_i role
        exact ⟨r, List.find?_cons_of_pos (by simpa using role), last⟩
      · rename_i role
        rw [List.find?_cons_of_neg (by simpa using role)]
        exact ih last

/-! ## The subject of a clause -/

open Clause

/-- What the trace of a clause tells of the subject. -/
def Clause.bearing (c : Clause) : Bearing := Assay.bearing c.lasting

theorem Clause.Appends.bearing {c c' : Clause} {r : Record} (appends : Appends c r c') :
    c'.bearing = c.bearing.after r := by
  rw [Clause.bearing, appends.lasting, bearing_append, Bearing.after_entered, ← Clause.bearing]

/-- A group stays among those that may be open until it has ended. -/
theorem outside_evolution : Evolution fun c c' => c.bearing.outside <:+ c'.bearing.outside where
  refl _ := List.suffix_rfl
  trans first second := first.trans second
  issue := by
    intro c op step issued
    obtain ⟨left, appends⟩ := appends_issued c issued
    simp [appends.bearing]
  setSubject c _ s v := by simp [(c.appends_setSubject _ s v).bearing]
  restoreTo _ _ := List.suffix_rfl
  judge c m s matched := by simp [(c.appends_judge m s matched).bearing]
  abort c call role text s := by simp [(c.appends_abort _ role text s).bearing]
  leaveGroup {outer inner} opened := by
    rw [outer.appends_openGroup.bearing, Bearing.after_start] at opened
    exact (List.suffix_cons _ _).trans opened
  closeGroup {outer inner} opened _ := by
    rw [outer.appends_openGroup.bearing, Bearing.after_start] at opened
    rw [(appends_closeGroup outer inner).bearing, Bearing.after_end]
    obtain ⟨raised, stacked⟩ := opened
    rw [← stacked]
    cases raised with
    | nil => exact List.suffix_rfl
    | cons _ raised => exact ⟨raised ++ [outer.bearing.picked], by simp⟩

/-- What the trace of a clause that takes snapshots tells of the subject is so. -/
structure Told (P : Heap → Value → Prop) (c : Clause) : Prop where
  tracing : c.options.tracingEnabled = true
  picked : c.bearing.picked = false → c.restore = none
  shown : ∀ S, c.bearing.shown = some S →
    ∃ x h, c.subject = some x ∧ P h x ∧ h.snapshot x = .ok S

namespace Told

variable {P : Heap → Value → Prop} {c c' : Clause} {r : Record}

/-- What leaves the subject alone may leave no `pick` to be undone. -/
theorem keep (told : Told P c) (options : c'.options = c.options) (subject : c'.subject = c.subject)
    (shown : ∀ S, c'.bearing.shown = some S → c.bearing.shown = some S)
    (picked : c'.bearing.picked = false → c'.restore = none) : Told P c' where
  tracing := (congrArg _ options).trans told.tracing
  picked := picked
  shown S same := subject ▸ told.shown S (shown S same)

/-- A verdict leaves the subject alone where no `pick` waits to be undone. -/
theorem verdict (told : Told P c) {pending : Option Value} (options : c'.options = c.options)
    (subject : c'.subject = pending.or c.subject) (restore : c'.restore = none)
    (shown : ∀ S, c'.bearing.shown = some S → c.bearing.shown = some S ∧ pending = none) :
    Told P c' where
  tracing := (congrArg _ options).trans told.tracing
  picked _ := restore
  shown S same := by
    obtain ⟨before, none⟩ := shown S same
    rw [subject, none, Option.none_or]
    exact told.shown S before

/-- What is set is shown by the record of the call that sets it. -/
theorem set (told : Told P c) {o : Operation} {s : Option Snapshot}
    (appends : Appends c { Record.setter o with captured := s } c') {h : Heap} {v : Value}
    (shown : P h v) (taken : c.picture h v = .ok s) (options : c'.options = c.options)
    (subject : c'.subject = some v) (restore : o ≠ .pick → c'.restore = none) : Told P c' where
  tracing := (congrArg _ options).trans told.tracing
  picked none := restore (by simpa [appends.bearing] using none)
  shown S same := by
    have captured : s = some S := by simpa [appends.bearing] using same
    refine ⟨v, h, subject, shown, ?_⟩
    simp only [picture, Clause.tracing, told.tracing, if_true, captured] at taken
    cases snapshot : h.snapshot v with
    | error f => simp [snapshot, Except.map] at taken
    | ok S' => simpa [snapshot, Except.map] using taken

end Told

/-- What a trace tells of the subject is so all through a run. -/
theorem told_invariant (P : Heap → Value → Prop) : Invariant P (Told P) where
  issue := by
    intro c op step told issued
    obtain ⟨left, appends⟩ := appends_issued c issued
    have bearing : step.1.bearing = c.bearing := by rw [appends.bearing, Bearing.after_operator]
    rcases c.addOperator_cases issued with ⟨_, left', same, _⟩ | ⟨a, _, left', _, _, same⟩
    all_goals
      exact told.keep (by rw [same]; rfl) (by rw [same]; rfl) (by rw [bearing]; exact fun _ => id)
        (by rw [bearing, same]; exact told.picked)
  setSubject {c h v s} o _ told shown taken :=
    told.set (c.appends_setSubject o s v) shown taken
      (c.sameLevel_setSubject o s v).options rfl fun _ => rfl
  pick {c h v s} x told shown taken :=
    told.set (c.appends_setSubject .pick s v) shown taken
      (c.sameLevel_setSubject .pick s v).options rfl fun picks => absurd rfl picks
  judge {c h v s} m matched told _ _ := by
    have bearing := (c.appends_judge m s matched).bearing
    rw [Bearing.after_matcher] at bearing
    refine told.verdict (resolve_options _ _ _) (resolve_subject _ _ _) (resolve_restore _ _ _)
      fun S shown => ?_
    rw [bearing] at shown
    cases picked : c.bearing.picked with
    | true => simp [picked] at shown
    | false => exact ⟨by simpa [picked] using shown, told.picked picked⟩
  abort {c h v s} o role text told _ _ := by
    have bearing := (c.appends_abort o role text s).bearing
    rw [Bearing.after_exception] at bearing
    refine told.keep rfl rfl (fun S shown => ?_) (by rw [bearing]; exact told.picked)
    rw [bearing] at shown
    by_cases setter : role = .setter <;> simp_all
  openGroup {c} told := by
    have bearing := c.appends_openGroup.bearing
    rw [Bearing.after_start] at bearing
    exact told.keep rfl rfl (by rw [bearing]; exact fun _ => id) fun _ => rfl
  leaveGroup told := ⟨told.tracing, told.picked, told.shown⟩
  closeGroup := by
    intro outer inner told told' evolved
    have bearing := (appends_closeGroup outer inner).bearing
    rw [Bearing.after_end] at bearing
    refine told'.verdict (resolve_options _ _ _) (resolve_subject _ _ _) (resolve_restore _ _ _)
      fun S shown => ?_
    rw [bearing] at shown
    by_cases outside : true ∈ inner.bearing.outside
    · simp [outside] at shown
    have stays := evolved _ outside_evolution
    rw [outer.appends_openGroup.bearing, Bearing.after_start] at stays
    have picked : outer.bearing.picked = false := by
      by_contra picks
      exact outside (stays.subset (by simp [picks]))
    exact ⟨by simpa [outside] using shown, told.picked picked⟩

/-! ## The explanation -/

/-- In a run a matcher compares a subject with an expected value in some world. -/
inductive Code.Compares (code : Code) (w : World) (i : Nat) (m : Matcher) (x y : Value)
    (w₁ : World) : Prop where
  | intro {block next rescue w₀ matched} :
      code.Reaches w (.call i (.check m) .code block next rescue) w₀ →
      w₀.handed? i (.check m) = some (.null, w₀) → (block .null).run w₀ = (w₁, .ok y) →
      (w₁.clause i).subject = some x → World.compare w₁.heap m x y = .ok matched →
      Compares code w i m x y w₁

/-- The verdict of a comparison is recorded together with the expected value. -/
theorem World.perform_check {w₀ w₁ : World} {i : Nat} {m : Matcher} {b : Block} {x y : Value}
    {s : Option Snapshot} {matched : Bool}
    (handed : w₀.handed? i (.check m) = some (.null, w₀)) (ran : b .null w₀ = (w₁, .ok y))
    (subject : (w₁.clause i).subject = some x) (compared : compare w₁.heap m x y = .ok matched)
    (taken : (w₁.clause i).picture w₁.heap y = .ok s) : ∃ w₂,
      w₀.perform i (.check m) (.code b) = (w₂, .ok ()) ∧
        w₂.clause i = ((w₁.clause i).judge m s matched).1 := by
  have present : (w₀.clause i).subject.isNone = false := by
    simp only [handed?] at handed
    split at handed
    · cases handed
    · rename_i present
      exact Bool.eq_false_iff.mpr present
  refine ⟨_, ?_, clause_update_self (w₁.remembering i y) i ((w₁.clause i).judge m s matched)⟩
  simp only [perform, present, Bool.false_eq_true, if_false, produce, Argument.block?, ran,
    Outcome.andThen, judge, subject, Option.getD_some, compared, capture_eq, taken,
    clause_remembering]

variable {code : Code} {w w₁ : World} {i : Nat} {m : Matcher} {x y : Value}

theorem Code.Compares.recorded (compares : code.Compares w i m x y w₁) {s : Option Snapshot}
    (taken : (w₁.clause i).picture w₁.heap y = .ok s) :
    (w₁.clause i).lasting ++ [Record.entered { Record.matcher m.operation with captured := s }
      (w₁.clause i).result.trace.length] <+: ((code.run w).1.clause i).lasting := by
  obtain @⟨block, next, rescue, w₀, matched, reaches, handed, ran, subject, compared⟩ := compares
  obtain ⟨w₂, called, judged⟩ := World.perform_check (b := fun v => (block v).run) handed ran
    subject compared taken
  have first := ((w₁.clause i).appends_judge m s matched).lasting
  rw [← judged] at first
  rw [← show (w₂.clause i).lasting = _ from first]
  have onward := next.evolves_run extends_evolution i w₂
  exact onward.trans ((reaches.trans (.returned called .here)).extends i)

/-- At the end of a run the record of a comparison is where it was made, after what the clause had
    recorded by then. -/
theorem Code.Compares.entered (compares : code.Compares w i m x y w₁) {c : Clause} {n : Nat}
    {s : Option Snapshot} (taken : (w₁.clause i).picture w₁.heap y = .ok s)
    (place : (w₁.clause i).result.trace.length = n) (ended : (code.run w).1.clause i = c) :
    (c.result.trace.take n).map Record.lasting = (w₁.clause i).lasting ∧
      ∃ r, c.result.trace[n]? = some r ∧ r.captured = s ∧ r.index = some n := by
  obtain ⟨later, grown⟩ := compares.recorded taken
  rw [place, ended, List.append_assoc, List.singleton_append] at grown
  have length : (w₁.clause i).lasting.length = n := by rw [Clause.length_lasting, place]
  have before := congrArg (List.take n) grown
  rw [← length, List.take_left] at before
  have here : c.lasting[n]? = some (Record.entered
      { Record.matcher m.operation with captured := s } n) := by
    rw [← grown, ← length, List.getElem?_append_right (Nat.le_refl _), Nat.sub_self]
    rfl
  obtain ⟨r, found, same⟩ : ∃ r, c.result.trace[n]? = some r ∧ r.lasting = _ := by
    simpa [Clause.lasting] using here
  refine ⟨?_, r, found, congrArg Record.captured same, congrArg Record.index same⟩
  rw [List.map_take, ← length]
  exact before.symm

theorem told_new {P : Heap → Value → Prop} {o : Options} (tracing : o.tracingEnabled = true) :
    Told P { options := o } where
  tracing := tracing
  picked _ := rfl
  shown S shown := by cases shown

/-- Where a comparison is made, the trace has told of the subject. -/
theorem Code.Compares.told (compares : code.Compares w i m x y w₁) (new : w.clauses = [])
    (tracing : w.options.tracingEnabled = true) : Told (code.Shows w) (w₁.clause i) := by
  obtain @⟨block, next, rescue, w₀, matched, reaches, handed, ran, _, _⟩ := compares
  have begun (j : Nat) : Told (code.Shows w) (w.clause j) := by
    have fresh : w.clause j = { options := w.options } := by
      simp [World.clause, new, Entries.lookup]
    exact fresh ▸ told_new tracing
  have invariant := told_invariant (code.Shows w)
  have here := invariant.reaches (reaches.trans (.inside handed .here)) begun fun _ _ => id
  have ended : Told (code.Shows w) (((block .null).run w₀).1.clause i) :=
    invariant.run here (fun h v shown => shown.before (reaches.trans (.inside handed .here))) i
  rwa [ran] at ended

/-- A failure is explained by the difference between the expected value and the subject it was
    compared with, where these do not change and the subject is what was set last. -/
theorem failureDiff_explains {c : Clause} {n : Nat} {E S : Snapshot} (new : w.clauses = [])
    (tracing : w.options.tracingEnabled = true) (compares : code.Compares w i m x y w₁)
    (expected : w₁.heap.snapshot y = .ok E) (actual : w₁.heap.snapshot x = .ok S)
    (still : ∀ h, code.Shows w h x → h.snapshot x = w₁.heap.snapshot x)
    (place : (w₁.clause i).result.trace.length = n) (ended : (code.run w).1.clause i = c)
    (failed : c.result.failPoint = some n)
    (last : (bearing (c.result.trace.take n)).shown.isSome) (memory : Memory) :
    c.result.failureDiff memory =
      Snapshot.diff memory.heap (memory.numbered E) (some (memory.numbered S)) := by
  have told := compares.told new tracing
  have taken : (w₁.clause i).picture w₁.heap y = .ok (some E) := by
    simp [Clause.picture, Clause.tracing, told.tracing, expected, Except.map]
  obtain ⟨before, r, found, captured, index⟩ := compares.entered taken place ended
  obtain ⟨T, shown⟩ := Option.isSome_iff_exists.mp last
  obtain ⟨s, set, kept⟩ := bearing_shown shown
  -- Verdicts that came later have filled in records, but these tell of the same subject.
  rw [← bearing_map_lasting, before] at shown
  obtain ⟨x', h, subject, inside, snapshot⟩ := told.shown T shown
  have one : x' = x := by
    obtain ⟨_, _, _, current, _⟩ := compares
    exact Option.some.inj (subject.symm.trans current)
  subst one
  have snapshots : T = S := Except.ok.inj (snapshot.symm.trans ((still h inside).trans actual))
  subst snapshots
  have pair : c.result.failurePair = .ok (some (E, T)) := by
    simp [TestResult.failurePair, TestResult.failRecord, failed, found, Except.map, captured, index,
      TestResult.setterBefore, set, kept]
  rw [TestResult.failureDiff, pair]

/-! ## Runs on numbers -/

/-- The snapshot of a number. -/
def numberSnapshot (n : Int) : Snapshot :=
  .node { type := "int", isLeaf := true, content := .value (.int n) } []

theorem snapshot_number (h : Heap) (n : Int) : h.snapshot (.int n) = .ok (numberSnapshot n) := rfl

/-- Calls in turn, each with code that gives a number. -/
def Code.numbers (calls : List (Call × Int)) : Code :=
  .calls 0 (calls.map fun (c, n) => (c, .code, fun _ => .give (.int n)))

/-- What was picked explains why a matcher has failed on it. -/
theorem failureDiff_explains_picked :
    let code := Code.numbers [(.that, 1), (.pick, 2), (.check .is, 3)]
    let c := (code.run World.start).1.clause 0
    c.result.failPoint = some 2 ∧ ∀ memory : Memory, c.result.failureDiff memory =
      Snapshot.diff memory.heap (memory.numbered (numberSnapshot 3))
        (some (memory.numbered (numberSnapshot 2))) := by
  intro code c
  have compares : code.Compares World.start 0 .is (.int 2) (.int 3) _ :=
    .intro (.returned rfl (.returned rfl .here)) rfl rfl rfl rfl
  exact ⟨rfl, failureDiff_explains rfl (by decide) compares (snapshot_number _ _)
    (snapshot_number _ _) (fun h _ => rfl) rfl rfl rfl rfl⟩

/-- It is not enough that the compared values do not change.  Once a verdict has put back what a
    `pick` had replaced, what was picked is still what was set last. -/
theorem failureDiff_misses_subject : ¬ ∀ (code : Code) (w w₁ : World) (i n : Nat) (m : Matcher)
    (x y : Value) (c : Clause) (E S : Snapshot) (memory : Memory), m = .is ∨ m = .like →
    w.clauses = [] → w.options.tracingEnabled = true → code.Compares w i m x y w₁ →
    w₁.heap.snapshot y = .ok E → w₁.heap.snapshot x = .ok S →
    (∀ h, code.Shows w h x → h.snapshot x = w₁.heap.snapshot x) →
    (w₁.clause i).result.trace.length = n → (code.run w).1.clause i = c →
    c.result.failPoint = some n → c.result.failureDiff memory =
      Snapshot.diff memory.heap (memory.numbered E) (some (memory.numbered S)) := by
  intro claim
  let code := Code.numbers [(.that, 1), (.pick, 2), (.check .is, 2), (.check .is, 3)]
  let c := (code.run World.start).1.clause 0
  have compares : code.Compares World.start 0 .is (.int 1) (.int 3) _ :=
    .intro (.returned rfl (.returned rfl (.returned rfl .here))) rfl rfl rfl rfl
  have explained := claim code World.start _ 0 3 .is (.int 1) (.int 3) c (numberSnapshot 3)
    (numberSnapshot 1) World.start.memory (.inl rfl) rfl (by decide) compares (snapshot_number _ _)
    (snapshot_number _ _) (fun h _ => rfl) rfl rfl (by decide +kernel)
  let texts (found : Noted (Option Snapshot)) : Option (List (List Value × String × String)) :=
    (found.2.toOption.bind id).map (·.leafDifferences)
  have told : texts (c.result.failureDiff World.start.memory) = some [([], "3", "2")] := by
    decide +kernel
  have wanted : texts (Snapshot.diff World.start.memory.heap
      (World.start.memory.numbered (numberSnapshot 3))
      (some (World.start.memory.numbered (numberSnapshot 1)))) = some [([], "3", "1")] := by
    decide +kernel
  rw [explained, wanted] at told
  exact absurd told (by decide)

end Assay
