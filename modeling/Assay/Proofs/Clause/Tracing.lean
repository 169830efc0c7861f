import Assay.Proofs.Clause.Lockstep
import Assay.Proofs.Clause.Places
import Assay.Proofs.Snapshot.Taken

/-! # Tracing changes no outcome

Whether snapshots are taken makes no difference to what a program does and to what its clauses come
to, as long as snapshots can be taken of what the calls work on: a record has its data or has none,
and all else in it is the same.
-/

namespace Assay

/-- The record without the data that was captured. -/
def Record.bare (r : Record) : Record := { r with captured := none }

/-- The result without the data that was captured. -/
def TestResult.bare (t : TestResult) : TestResult := { t with trace := t.trace.map Record.bare }

namespace TestResult

variable (t : TestResult)

theorem bare_add (r : Record) : t.bare.add r.bare = (t.add r).bare := by
  have linked : (t.trace.modify (t.trace.length - 1) fun last =>
      { last with next := some t.trace.length }).map Record.bare =
        (t.trace.map Record.bare).modify (t.trace.length - 1) fun last =>
          { last with next := some t.trace.length } := map_modify _ _ fun _ => rfl
  simp only [add, bare, List.length_map, List.map_append, List.map_cons, List.map_nil, linked]
  rfl

theorem bare_modify {f : Record → Record} (i : Nat) (commutes : ∀ r, f r.bare = (f r).bare) :
    t.bare.modify i f = (t.modify i f).bare := by
  have mapped : (t.trace.modify i f).map Record.bare = (t.trace.map Record.bare).modify i f :=
    map_modify _ _ fun r => (commutes r).symm
  simp only [modify, bare, mapped]

theorem bare_find (i : Nat) : t.bare.trace[i]? = t.trace[i]?.map Record.bare := List.getElem?_map

end TestResult

namespace Clause

/-- A clause as it would be under options that take no snapshots. -/
def silent (o : Options) (c : Clause) : Clause := { c with options := o, result := c.result.bare }

variable (o : Options) (c : Clause)

theorem silent_add (r : Record) : (c.silent o).add r.bare = (c.add r).silent o := by
  simp only [add, silent, c.result.bare_add]

theorem silent_modify {f : Record → Record} (i : Nat) (commutes : ∀ r, f r.bare = (f r).bare) :
    (c.silent o).modify i f = (c.modify i f).silent o := by
  simp only [modify, silent, c.result.bare_modify i commutes]

theorem silent_operatorAt? (i : Nat) : (c.silent o).operatorAt? i = c.operatorAt? i := by
  simp only [operatorAt?, silent, TestResult.bare_find, Option.bind_map]
  rfl

theorem silent_activeStatus? : (c.silent o).activeStatus? = c.activeStatus? := by
  simp only [activeStatus?, silent, TestResult.bare_find, Option.map_map]
  rfl

theorem silent_waiting? : (c.silent o).waiting? = c.waiting? := by
  simp only [waiting?, silent, TestResult.bare_find, Option.bind_eq_bind, Option.bind_map]
  rfl

theorem silent_issue (op : Operator) (left : Status) :
    (c.silent o).issue op left = (c.issue op left).silent o := by
  have added := (c.setStatus .notImplemented).silent_add o (.logic (.logic op) (some left))
  have length : (c.silent o).result.trace.length = c.result.trace.length := List.length_map _
  simp only [issue, length]
  exact congrArg (fun c' : Clause => { c' with active := some c.result.trace.length }) added

theorem silent_addOperator (op : Operator) : (c.silent o).addOperator op =
    (c.addOperator op).map fun step => (step.1.silent o, step.2) := by
  have dropped : (c.silent o).deferred.bind (c.silent o).operatorAt? =
      c.deferred.bind c.operatorAt? := by
    simp only [funext (c.silent_operatorAt? o)]
    rfl
  cases waits : c.waiting? with
  | none =>
      cases op <;>
        simp only [addOperator, silent_waiting?, silent_activeStatus?, waits, silent_issue] <;> rfl
  | some p =>
      obtain ⟨i, waiting⟩ := p
      have issued := ({ c with deferred := some i } : Clause).silent_issue o .not
        (c.activeStatus?.getD .pass)
      cases op with
      | not =>
          simp only [addOperator, silent_waiting?, silent_activeStatus?, waits, dropped]
          exact congrArg (fun c' => Except.ok (c', _)) issued
      | and | or | xor => simp only [addOperator, silent_waiting?, waits]; rfl

theorem silent_setSubject (op : Operation) (s : Option Snapshot) (v : Value) :
    (c.silent o).setSubject op none v = (c.setSubject op s v).silent o := by
  have added : (c.silent o).add { Record.setter op with captured := none } =
      (c.add { Record.setter op with captured := s }).silent o :=
    c.silent_add o { Record.setter op with captured := s }
  unfold setSubject
  dsimp only
  rw [added]
  generalize c.add { Record.setter op with captured := s } = c₁
  have status : (c₁.silent o).result.status = c₁.result.status := rfl
  by_cases waits : c₁.result.status = .notImplemented
  · simp only [status, waits, if_true]
    rfl
  · simp only [status, waits, if_false]
    rfl

theorem silent_abort (op : Operation) (role : Role) (text : String) (s : Option Snapshot) :
    (c.silent o).abort op role text none = (c.abort op role text s).silent o :=
  congrArg (setStatus · .exception)
    (c.silent_add o { Record.exception op role text with captured := s })

theorem silent_openGroup : (c.silent o).openGroup = c.openGroup.silent o :=
  congrArg (fun c' : Clause => { c' with
      active := none, deferred := none, restore := none, depth := c.depth + 1 })
    ((c.setStatus .pass).silent_add o (.logic .blockStart (some .pass)))

/-! ## Verdicts -/

theorem silent_settle (i : Nat) (op : Operator) (v : Status) : (c.silent o).settle i op v =
    ((c.settle i op v).1.silent o, (c.settle i op v).2) := by
  have left : (c.silent o).result.trace[i]?.bind (·.left) =
      c.result.trace[i]?.bind (·.left) := by
    simp only [silent, TestResult.bare_find, Option.bind_map]
    rfl
  simp only [settle, left]
  exact Prod.ext (c.silent_modify o i fun _ => rfl) rfl

theorem silent_settleDeferred (v : Status) : (c.silent o).settleDeferred v =
    ((c.settleDeferred v).1.silent o, (c.settleDeferred v).2) := by
  have pushed : ((c.silent o).deferred.bind fun i => ((c.silent o).operatorAt? i).map (i, ·)) =
      c.deferred.bind fun i => (c.operatorAt? i).map (i, ·) := by
    simp only [c.silent_operatorAt? o]
    rfl
  unfold settleDeferred
  rw [pushed]
  cases c.deferred.bind fun i => (c.operatorAt? i).map (i, ·) with
  | none => rfl
  | some slot => simp only [silent_settle]; rfl

theorem silent_conclude (i : Nat) (s : Status) : (c.silent o).conclude i s =
    ((c.conclude i s).1.silent o, (c.conclude i s).2) := by
  have filled : (c.silent o).modify i (fun r => { r with status := s }) =
      (c.modify i fun r => { r with status := s }).silent o := c.silent_modify o i fun _ => rfl
  unfold conclude
  dsimp only
  rw [filled]
  generalize c.modify i (fun r => { r with status := s }) = c₁
  by_cases top : c₁.depth = 0
  · cases restore : c₁.restore <;>
      simp only [silent, setStatus, TestResult.bare, top, restore, if_true]
  · cases restore : c₁.restore <;>
      simp only [silent, setStatus, TestResult.bare, top, restore, if_false]

theorem silent_resolve (i : Nat) (v : Status) : (c.silent o).resolve i v =
    ((c.resolve i v).1.silent o, (c.resolve i v).2) := by
  have found : (c.silent o).modify i (fun r => { r with right := v }) =
      (c.modify i fun r => { r with right := v }).silent o := c.silent_modify o i fun _ => rfl
  unfold resolve
  dsimp only
  rw [found, silent_waiting?]
  generalize c.modify i (fun r => { r with right := v }) = c₁
  cases c₁.waiting? with
  | none => exact c₁.silent_conclude o i v
  | some waiting =>
      obtain ⟨a, op⟩ := waiting
      simp only [silent_settle, silent_settleDeferred]
      generalize (c₁.settle a op v).1.settleDeferred (c₁.settle a op v).2.1 = second
      by_cases inverts : op = .not
      · have turned : (second.1.silent o).modify i (fun r => { r with invert := true }) =
            (second.1.modify i fun r => { r with invert := true }).silent o :=
          second.1.silent_modify o i fun _ => rfl
        simp only [inverts, if_true, turned, silent_conclude]
      · simp only [inverts, if_false, silent_conclude]

theorem silent_judge (m : Matcher) (s : Option Snapshot) (matched : Bool) :
    ((c.silent o).judge m none matched).1 = (c.judge m s matched).1.silent o := by
  have added : (c.silent o).add { Record.matcher m.operation with captured := none } =
      (c.add { Record.matcher m.operation with captured := s }).silent o :=
    c.silent_add o { Record.matcher m.operation with captured := s }
  have length : (c.silent o).result.trace.length = c.result.trace.length := List.length_map _
  unfold judge
  dsimp only
  rw [added, length, silent_resolve]

theorem silent_closeGroup (outer inner : Clause) (o' : Options) :
    (closeGroup (outer.silent o') (inner.silent o)).1 = (closeGroup outer inner).1.silent o := by
  have added : (resume (outer.silent o') (inner.silent o)).add
      (.logic .blockEnd (some outer.result.status)) =
        ((resume outer inner).add (.logic .blockEnd (some outer.result.status))).silent o :=
    (resume outer inner).silent_add o (.logic .blockEnd (some outer.result.status))
  have length : (inner.silent o).result.trace.length = inner.result.trace.length :=
    List.length_map _
  unfold closeGroup
  dsimp only
  rw [length]
  show (resolve ((resume (outer.silent o') (inner.silent o)).add
    (.logic .blockEnd (some outer.result.status))) _ inner.result.status).1 = _
  rw [added, silent_resolve]

/-! ## Side by side -/

/-- Two states of a clause that differ in what is captured only: the one takes snapshots, and the
    other takes none. -/
structure Muted (c c' : Clause) : Prop where
  same : c' = c.silent c'.options
  tracing : c.tracing = true
  silent : c'.tracing = false

variable {c}

theorem tracing_of_options {c c' : Clause} (options : c'.options = c.options) :
    c'.tracing = c.tracing := by
  rw [tracing, tracing, options]

/-- What a step makes of both states is again the same but for what is captured, if it keeps the
    options. -/
theorem Muted.step {c c' d : Clause} (muted : Muted c c') (options : d.options = c.options) :
    Muted d (d.silent c'.options) where
  same := rfl
  tracing := (tracing_of_options options).trans muted.tracing
  silent := muted.silent

end Clause

/-- Memories that differ at most in how composites are numbered. -/
structure Memory.Agrees (m m' : Memory) : Prop where
  heap : m'.heap = m.heap
  names : m'.names = m.names

/-- Code that does not look at how composites are numbered, which is a matter of reports. -/
abbrev Code.Blind (code : Code) : Prop := code.Alike Memory.Agrees code

namespace Clause

open World

theorem Muted.remember {c c' : Clause} (muted : Muted c c') {m m' : Memory} (agrees : m.Agrees m')
    (v : Value) : (c.remember m v).Agrees (c'.remember m' v) := by
  rw [Clause.remember, Clause.remember, muted.tracing, muted.silent]
  exact ⟨agrees.heap, agrees.names⟩

theorem Muted.captured {P : Heap → Value → Prop} {c c' : Clause} {v : Value}
    {s s' : Option Snapshot} (muted : Muted c c') (pictured : Pictured P c c' v s s') :
    s' = none := by
  obtain ⟨h, _, _, taken⟩ := pictured
  rw [picture, muted.silent] at taken
  exact (Except.ok.inj taken).symm

theorem muted_paired : Paired Memory.Agrees (fun h v => ∃ s, h.snapshot v = .ok s) Muted where
  subject muted := by rw [muted.same]; rfl
  status muted := by rw [muted.same]; rfl
  remember v agrees muted := muted.remember agrees v
  picture := by
    intro c c' h v muted shown
    obtain ⟨s, taken⟩ := shown
    refine .inr ⟨some s, none, ?_, ?_⟩
    · rw [picture, muted.tracing, if_pos rfl, taken]
      rfl
    · rw [picture, muted.silent]
      rfl
  issue := by
    intro c c' op muted
    have issued := c.silent_addOperator c'.options op
    rw [← muted.same] at issued
    cases found : c.addOperator op with
    | error m =>
        rw [found] at issued
        exact .inl ⟨m, rfl, issued⟩
    | ok step =>
        rw [found] at issued
        exact .inr ⟨step, _, rfl, issued,
          muted.step (sameLevel_evolution.issue found).options⟩
  setSubject := by
    intro c c' v s s' op _ muted pictured
    have same := c.silent_setSubject c'.options op s v
    rw [← muted.same] at same
    rw [muted.captured pictured, same]
    exact muted.step (Clause.sameLevel_setSubject ..).options
  pick := by
    intro c c' v s s' x muted pictured
    have same := c.silent_setSubject c'.options .pick s v
    rw [← muted.same] at same
    rw [muted.captured pictured, same]
    exact muted.step (d := { c.setSubject .pick s v with restore := some x })
      (c.sameLevel_setSubject .pick s v).options
  judge := by
    intro c c' v s s' m matched muted pictured
    have same := c.silent_judge c'.options m s matched
    rw [← muted.same] at same
    rw [muted.captured pictured, same]
    exact muted.step (sameLevel_evolution.judge ..).options
  abort := by
    intro c c' v s s' op role text muted pictured
    have same := c.silent_abort c'.options op role text s
    rw [← muted.same] at same
    rw [muted.captured pictured, same]
    exact muted.step rfl
  openGroup := by
    intro c c' muted
    have same := c.silent_openGroup c'.options
    rw [← muted.same] at same
    rw [same]
    exact muted.step rfl
  leaveGroup := by
    intro outer outer' inner inner' _ muted _ _
    rw [muted.same]
    exact muted.step (d := { inner with depth := inner.depth - 1 }) rfl
  closeGroup := by
    intro outer outer' inner inner' around muted _ _ _
    have same := silent_closeGroup inner'.options outer { inner with depth := inner.depth - 1 }
      outer'.options
    rw [← around.same] at same
    rw [muted.same]
    show Muted _ (Clause.closeGroup outer'
      (({ inner with depth := inner.depth - 1 } : Clause).silent inner'.options)).1
    rw [same]
    exact muted.step (resolve_options _ _ _)

end Clause

open Clause World

/-- Of two runs of a program, one under options that take snapshots and one under options that take
    none, the calls end in the same way one after the other, and what the clauses come to is the
    same but for the data in their records, as long as the values of which snapshots are taken tell
    their members. -/
theorem tracing_changes_no_outcome {code : Code} (blind : code.Blind) {w : World}
    (new : w.clauses = []) {on off : Options} (tracing : on.tracingEnabled = true)
    (silent : off.tracingEnabled = false)
    (enumerates : ∀ h v, code.Shows { w with options := on } h v → h.Enumerates v) :
    let o := code.run { w with options := on }
    let o' := code.run { w with options := off }
    o'.2 = o.2 ∧
      code.history { w with options := off } = code.history { w with options := on } ∧
      o.1.memory.Agrees o'.1.memory ∧ o'.1.facets = o.1.facets ∧
      ∀ i, (o'.1.clause i).result.status = (o.1.clause i).result.status ∧
        (o'.1.clause i).result.failPoint = (o.1.clause i).result.failPoint ∧
        (o'.1.clause i).subject = (o.1.clause i).subject ∧
        (o'.1.clause i).result.trace = (o.1.clause i).result.trace.map Record.bare := by
  intro o o'
  have lock : Lockstep Memory.Agrees (fun h v => ∃ s, h.snapshot v = .ok s) fun _ => Muted :=
    { heap := Memory.Agrees.heap
      setHeap := fun h agrees => ⟨rfl, agrees.names⟩
      steps := fun _ => muted_paired }
  have start : Abreast Memory.Agrees (fun _ => Muted) { w with options := on }
      { w with options := off } := by
    refine ⟨⟨rfl, rfl⟩, rfl, rfl, fun i => ?_⟩
    have untouched (options : Options) : ({ w with options } : World).clause i = { options } := by
      simp [World.clause, new, Entries.lookup]
    rw [untouched, untouched]
    exact ⟨rfl, tracing, silent⟩
  obtain ⟨⟨world, result⟩, history⟩ := lock.run blind start fun h v shows =>
    Heap.snapshot_ok (enumerates h v shows)
  refine ⟨result, history, world.memory, world.facets, fun i => ?_⟩
  have same := (world.clauses i).same
  exact ⟨by rw [same]; rfl, by rw [same]; rfl, by rw [same]; rfl, by rw [same]; rfl⟩

theorem tracing_changes_no_outcome_that_is :
    let code := Code.calls 0
      [(.that, .code, fun _ => .give (.int 1)), (.check .is, .code, fun _ => .give (.int 2))]
    let o := code.run { World.start with options := .default }
    let o' := code.run { World.start with options := .silent }
    (code.Blind ∧ World.start.clauses = [] ∧ Options.default.tracingEnabled = true ∧
      Options.silent.tracingEnabled = false) ∧
    o'.2 = o.2 ∧ (o.1.clause 0).result.status = .fail ∧
      (o'.1.clause 0).result.status = (o.1.clause 0).result.status := by
  intro code o o'
  have blind : code.Blind :=
    .call (fun _ => .give) (.call (fun _ => .give) .give fun _ => .fail) fun _ => .fail
  have produced {n : Int} {w w₁ : World} {x y : Value} {call : Call}
      (ran : ((w, .ok (.int n)) : Outcome Value) = (w₁, .ok x)) (kept : call.kept? x = some y)
      (value : call = .that ∨ ∃ m, call = .check m) : y = .int n := by
    cases ran
    rcases value with rfl | ⟨m, rfl⟩ <;> exact (Option.some.inj kept).symm
  have enumerates : ∀ h v, code.Shows { World.start with options := .default } h v →
      h.Enumerates v := by
    rintro h v ⟨i, c, block, next, rescue, w', reaches, shown⟩
    have number : ∃ n, v = .int n := by
      change Code.Reaches (.call 0 .that .code (fun _ => .give (.int 1)) (.call 0 (.check .is) .code
        (fun _ => .give (.int 2)) (.give .null) .fail) .fail) _ _ _ at reaches
      cases reaches with
      | here =>
          cases shown with
          | value _ ran kept => exact ⟨1, produced ran kept (.inl rfl)⟩
          | error _ ran _ => cases ran
          | fault check _ _ _ => cases check
      | inside _ reaches => cases reaches
      | raised _ reaches => cases reaches
      | returned called reaches =>
          cases called
          cases reaches with
          | here =>
              cases shown with
              | value _ ran kept => exact ⟨2, produced ran kept (.inr ⟨.is, rfl⟩)⟩
              | error _ ran _ => cases ran
              | fault check handed ran found =>
                  cases check
                  cases handed
                  cases ran
                  cases found
          | inside _ reaches => cases reaches
          | raised _ reaches => cases reaches
          | returned _ reaches => cases reaches
    obtain ⟨n, rfl⟩ := number
    exact Heap.enumerates_leaf rfl
  have on : Options.default.tracingEnabled = true := by decide
  have off : Options.silent.tracingEnabled = false := by decide
  have same := tracing_changes_no_outcome blind (w := World.start) rfl on off enumerates
  exact ⟨⟨blind, rfl, by decide, by decide⟩, same.1, rfl, (same.2.2.2.2 0).1⟩

end Assay
