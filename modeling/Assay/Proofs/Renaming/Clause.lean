import Assay.Clause.World
import Assay.Proofs.Renaming.Snapshot

/-! # Clauses that have seen the same

The states of one chain in two runs are the same but for the addresses in them, and every step keeps
them so. What a step notes and decides does not depend on addresses.
-/

namespace Assay

variable {R : Renaming}

/-- The same record of data at other addresses. -/
def Record.Renamed (R : Renaming) (r r' : Record) : Prop :=
  ∃ captured, r' = { r with captured } ∧ Option.Rel (Snapshot.Renamed R) r.captured captured

/-- The same result, its records being of data at other addresses. -/
structure TestResult.Renamed (R : Renaming) (t t' : TestResult) : Prop where
  status : t'.status = t.status
  trace : List.Forall₂ (Record.Renamed R) t.trace t'.trace
  failPoint : t'.failPoint = t.failPoint

/-- The same state of a chain about values at other addresses. -/
structure Clause.Renamed (R : Renaming) (c c' : Clause) : Prop where
  options : c'.options = c.options
  result : c.result.Renamed R c'.result
  subject : Option.Rel (Value.Renamed R) c.subject c'.subject
  restore : Option.Rel (Value.Renamed R) c.restore c'.restore
  active : c'.active = c.active
  deferred : c'.deferred = c.deferred
  depth : c'.depth = c.depth

/-- The same exception at another address. -/
inductive Raised.Renamed (R : Renaming) : Raised → Raised → Prop where
  | error {a a'} : R a a' → Renamed R (.error a) (.error a')
  | interrupt {a a'} : R a a' → Renamed R (.interrupt a) (.interrupt a')
  | aborted {a a' o cause text} : R a a' → Renamed R (.aborted a o cause text) (.aborted a' o cause text)
  | misused {a a' m} : R a a' → Renamed R (.misused a m) (.misused a' m)
  | duplicate {a a' d} : R a a' → Renamed R (.duplicate a d) (.duplicate a' d)

/-- The same result of a facet, its records being of data at other addresses. -/
structure FacetResult.Renamed (R : Renaming) (f f' : FacetResult) : Prop where
  name : f'.name = f.name
  tests : List.Forall₂ (Both Eq (TestResult.Renamed R)) f.tests f'.tests
  exceptional : f'.exceptional = f.exceptional

namespace Raised.Renamed

variable {r r' : Raised} (renamed : r.Renamed R r')

include renamed

theorem address : R r.address r'.address := by
  cases renamed <;> assumption

theorem isInterrupt : r'.isInterrupt = r.isInterrupt := by
  cases renamed <;> rfl

theorem leavesGroups : r'.leavesGroups = r.leavesGroups := by
  cases renamed <;> rfl

end Raised.Renamed

theorem FacetResult.Renamed.status {f f' : FacetResult} (renamed : f.Renamed R f') :
    f'.status = f.status := by
  have statuses : f'.tests.map (fun test => test.2.status) = f.tests.map fun test => test.2.status := by
    have tests := renamed.tests
    generalize f.tests = ts, f'.tests = ts' at tests
    induction tests with
    | nil => rfl
    | cons here _ ih => rw [List.map_cons, List.map_cons, ih, here.2.status]
  simp only [FacetResult.status, renamed.exceptional, statuses]

/-! ## Records -/

namespace Record.Renamed

variable {r r' : Record}

theorem status (renamed : r.Renamed R r') : r'.status = r.status := by
  obtain ⟨captured, rfl, _⟩ := renamed
  rfl

theorem left (renamed : r.Renamed R r') : r'.left = r.left := by
  obtain ⟨captured, rfl, _⟩ := renamed
  rfl

theorem operation (renamed : r.Renamed R r') : r'.operation = r.operation := by
  obtain ⟨captured, rfl, _⟩ := renamed
  rfl

theorem same (r : Record) (bare : r.captured = none) : r.Renamed R r :=
  ⟨none, by rw [← bare], by rw [bare]; exact .none⟩

theorem mono {S : Renaming} (more : ∀ a a', R a a' → S a a') (renamed : r.Renamed R r') :
    r.Renamed S r' := by
  obtain ⟨captured, same, related⟩ := renamed
  refine ⟨captured, same, ?_⟩
  generalize r.captured = s at related ⊢
  cases related with
  | none => exact .none
  | some tree => exact .some (tree.mono more)

end Record.Renamed

namespace TestResult.Renamed

variable {t t' : TestResult} (renamed : t.Renamed R t')

include renamed

theorem length : t'.trace.length = t.trace.length := renamed.trace.length_eq.symm

theorem modify (i : Nat) {f : Record → Record}
    (keeps : ∀ r r', r.Renamed R r' → (f r).Renamed R (f r')) :
    (t.modify i f).Renamed R (t'.modify i f) where
  status := renamed.status
  failPoint := renamed.failPoint
  trace := by
    have trace := renamed.trace
    simp only [TestResult.modify]
    generalize t.trace = rs, t'.trace = rs' at trace ⊢
    induction trace generalizing i with
    | nil => cases i <;> exact .nil
    | cons here rest ih =>
        cases i with
        | zero => exact .cons (keeps _ _ here) rest
        | succ i => exact .cons here (ih i)

theorem add {r r' : Record} (record : r.Renamed R r') : (t.add r).Renamed R (t'.add r') where
  status := renamed.status
  failPoint := renamed.failPoint
  trace := by
    obtain ⟨captured, rfl, related⟩ := record
    have linked := (renamed.modify (t.trace.length - 1)
      (f := fun last => { last with next := some t.trace.length }) fun r r' here => by
        obtain ⟨captured, rfl, related⟩ := here
        exact ⟨captured, rfl, related⟩).trace
    simp only [TestResult.add, renamed.length]
    exact List.rel_append linked (.cons ⟨captured, rfl, related⟩ .nil)

theorem mono {S : Renaming} (more : ∀ a a', R a a' → S a a') : t.Renamed S t' :=
  ⟨renamed.status, renamed.trace.imp fun _ _ record => record.mono more, renamed.failPoint⟩

end TestResult.Renamed

/-! ## Steps -/

namespace Clause.Renamed

variable {c c' : Clause} (renamed : c.Renamed R c')

include renamed

theorem mono {S : Renaming} (more : ∀ a a', R a a' → S a a') : c.Renamed S c' := by
  have values {x x' : Option Value} (related : Option.Rel (Value.Renamed R) x x') :
      Option.Rel (Value.Renamed S) x x' := by
    cases related with
    | none => exact .none
    | some here => exact .some (here.mono more)
  exact { renamed with
    result := renamed.result.mono more, subject := values renamed.subject
    restore := values renamed.restore }

theorem tracing : c'.tracing = c.tracing := by
  simp only [Clause.tracing, renamed.options]

theorem add {r r' : Record} (record : r.Renamed R r') : (c.add r).Renamed R (c'.add r') :=
  { renamed with result := renamed.result.add record }

theorem modify (i : Nat) {f : Record → Record}
    (keeps : ∀ r r', r.Renamed R r' → (f r).Renamed R (f r')) :
    (c.modify i f).Renamed R (c'.modify i f) :=
  { renamed with result := renamed.result.modify i keeps }

theorem setStatus (s : Status) : (c.setStatus s).Renamed R (c'.setStatus s) :=
  { renamed with result := { renamed.result with status := rfl } }

theorem record (i : Nat) :
    Option.Rel (Record.Renamed R) c.result.trace[i]? c'.result.trace[i]? :=
  getElem?_related renamed.result.trace i

theorem operatorAt? (i : Nat) : c'.operatorAt? i = c.operatorAt? i := by
  have record := renamed.record i
  unfold Clause.operatorAt?
  generalize c.result.trace[i]? = r, c'.result.trace[i]? = r' at record ⊢
  cases record with
  | none => rfl
  | some here => simp only [Option.bind_some, here.operation]

theorem activeStatus? : c'.activeStatus? = c.activeStatus? := by
  unfold Clause.activeStatus?
  rw [renamed.active]
  cases c.active with
  | none => rfl
  | some i =>
      have record := renamed.record i
      simp only [Option.bind_some]
      generalize c.result.trace[i]? = r, c'.result.trace[i]? = r' at record ⊢
      cases record with
      | none => rfl
      | some here => simp only [Option.map_some, here.status]

theorem waiting? : c'.waiting? = c.waiting? := by
  unfold Clause.waiting?
  rw [renamed.active]
  cases c.active with
  | none => rfl
  | some i =>
      have record := renamed.record i
      simp only [bind, Option.bind_some]
      generalize c.result.trace[i]? = r, c'.result.trace[i]? = r' at record ⊢
      cases record with
      | none => rfl
      | some here =>
          simp only [Option.bind_some, Record.isResolved, here.status, here.operation]
          rfl

theorem issue (op : Operator) (left : Status) : (c.issue op left).Renamed R (c'.issue op left) := by
  have added := (renamed.setStatus .notImplemented).add (.same (.logic (.logic op) (some left)) rfl)
  exact { added with active := congrArg some renamed.result.length }

/-- A step has led to the same state of a chain, and to the same notes. -/
def Steps (R : Renaming) {α : Type} (step step' : Clause × α) : Prop :=
  step.1.Renamed R step'.1 ∧ step'.2 = step.2

theorem addOperator (op : Operator) :
    (∃ m, c.addOperator op = .error m ∧ c'.addOperator op = .error m) ∨
      ∃ step step', c.addOperator op = .ok step ∧ c'.addOperator op = .ok step' ∧
        Steps R step step' := by
  have operators : c'.operatorAt? = c.operatorAt? := funext renamed.operatorAt?
  unfold Clause.addOperator
  rw [renamed.waiting?, renamed.activeStatus?, renamed.deferred, operators, renamed.result.status]
  cases c.waiting? with
  | none =>
      cases op <;> exact .inr ⟨_, _, rfl, rfl, renamed.issue _ _, rfl⟩
  | some found =>
      obtain ⟨i, waiting⟩ := found
      cases op with
      | not =>
          have deferring : Clause.Renamed R { c with deferred := some i }
            { c' with deferred := some i } := { renamed with deferred := rfl }
          exact .inr ⟨_, _, rfl, rfl, deferring.issue _ _, rfl⟩
      | and | or | xor => exact .inl ⟨_, rfl, rfl⟩

theorem settle (i : Nat) (op : Operator) (verdict : Status) :
    Steps R (c.settle i op verdict) (c'.settle i op verdict) := by
  have left : c'.result.trace[i]?.bind (·.left) = c.result.trace[i]?.bind (·.left) := by
    have record := renamed.record i
    generalize c.result.trace[i]? = r, c'.result.trace[i]? = r' at record ⊢
    cases record with
    | none => rfl
    | some here => simp only [Option.bind_some, here.left]
  unfold Clause.settle
  simp only [left]
  refine ⟨renamed.modify i ?_, rfl⟩
  rintro r _ ⟨captured, rfl, related⟩
  exact ⟨captured, rfl, related⟩

theorem settleDeferred (verdict : Status) :
    Steps R (c.settleDeferred verdict) (c'.settleDeferred verdict) := by
  have operators : c'.operatorAt? = c.operatorAt? := funext renamed.operatorAt?
  unfold Clause.settleDeferred
  rw [renamed.deferred, operators]
  cases c.deferred.bind fun i => (c.operatorAt? i).map (i, ·) with
  | none => exact ⟨renamed, rfl⟩
  | some found =>
      obtain ⟨i, op⟩ := found
      have settled := renamed.settle i op verdict
      exact ⟨{ settled.1 with deferred := rfl }, by
        simp only [settled.2]⟩

/-- At the top of a chain a verdict moves the fail point. -/
theorem countVerdict (i : Nat) (status : Status) :
    Clause.Renamed R
      (if c.depth = 0 then
        { c with result := { c.result with
            failPoint := failPointAfter c.result.failPoint i status } }
      else c)
      (if c'.depth = 0 then
        { c' with result := { c'.result with
            failPoint := failPointAfter c'.result.failPoint i status } }
      else c') := by
  by_cases top : c.depth = 0
  · rw [if_pos top, if_pos (renamed.depth.trans top)]
    exact { renamed with
      result := { renamed.result with
        failPoint := congrArg (failPointAfter · i status) renamed.result.failPoint } }
  · rw [if_neg top, if_neg fun top' => top (renamed.depth.symm.trans top')]
    exact renamed

/-- After a verdict a `pick` is undone. -/
theorem undoPick : Steps R
    (match c.restore with
      | none => (c, [])
      | some v => ({ c with subject := some v, restore := none }, ["Subject restored after pick"]))
    (match c'.restore with
      | none => (c', [])
      | some v =>
        ({ c' with subject := some v, restore := none }, ["Subject restored after pick"])) := by
  have restore := renamed.restore
  generalize c.restore = x, c'.restore = x' at restore ⊢
  cases restore with
  | none => exact ⟨renamed, rfl⟩
  | some value => exact ⟨{ renamed with subject := .some value, restore := .none }, rfl⟩

theorem conclude (i : Nat) (status : Status) :
    Steps R (c.conclude i status) (c'.conclude i status) := by
  have modified := renamed.modify i (f := fun r => { r with status }) fun r _ record => by
    obtain ⟨captured, rfl, related⟩ := record
    exact ⟨captured, rfl, related⟩
  have concluded : Clause.Renamed R
      { (c.modify i fun r => { r with status }).setStatus status with active := some i }
      { (c'.modify i fun r => { r with status }).setStatus status with active := some i } :=
    { modified.setStatus status with active := rfl }
  exact (concluded.countVerdict i status).undoPick

theorem resolve (i : Nat) (verdict : Status) :
    Steps R (c.resolve i verdict) (c'.resolve i verdict) := by
  have found := renamed.modify i (f := fun r => { r with right := verdict }) fun r _ record => by
    obtain ⟨captured, rfl, related⟩ := record
    exact ⟨captured, rfl, related⟩
  unfold Clause.resolve
  simp only [found.waiting?]
  cases (c.modify i fun r => { r with right := verdict }).waiting? with
  | none => exact found.conclude i verdict
  | some waiting =>
      obtain ⟨a, op⟩ := waiting
      have settled := found.settle a op verdict
      dsimp only
      generalize (c.modify i fun r => { r with right := verdict }).settle a op verdict = step,
        (c'.modify i fun r => { r with right := verdict }).settle a op verdict = step' at settled ⊢
      obtain ⟨k, status, note⟩ := step
      obtain ⟨k', _, _⟩ := step'
      obtain ⟨state, same⟩ := settled
      cases same
      have deferred := state.settleDeferred status
      dsimp only at deferred ⊢
      generalize k.settleDeferred status = step, k'.settleDeferred status = step' at deferred ⊢
      obtain ⟨k, status, notes⟩ := step
      obtain ⟨k', _, _⟩ := step'
      obtain ⟨state, same⟩ := deferred
      cases same
      have inverted : Clause.Renamed R
          (if op = .not then k.modify i fun r => { r with invert := true } else k)
          (if op = .not then k'.modify i fun r => { r with invert := true } else k') := by
        split
        · refine state.modify i fun r _ record => ?_
          obtain ⟨captured, rfl, related⟩ := record
          exact ⟨captured, rfl, related⟩
        · exact state
      have concluded := inverted.conclude i status
      exact ⟨concluded.1, by simp only [concluded.2]⟩

theorem setSubject (o : Operation) {s s' : Option Snapshot} (captured : Option.Rel (Snapshot.Renamed R) s s')
    {v v' : Value} (value : v.Renamed R v') :
    (c.setSubject o s v).Renamed R (c'.setSubject o s' v') := by
  have added := renamed.add (r := { Record.setter o with captured := s }) ⟨s', rfl, captured⟩
  unfold Clause.setSubject
  simp only [added.result.status]
  split
  · exact { added.setStatus .pass with subject := .some value, restore := .none }
  · exact { added with subject := .some value, restore := .none }

theorem judge (m : Matcher) (matched : Bool) {s s' : Option Snapshot}
    (captured : Option.Rel (Snapshot.Renamed R) s s') :
    Steps R (c.judge m s matched) (c'.judge m s' matched) := by
  have added := renamed.add (r := { Record.matcher m.operation with captured := s })
    ⟨s', rfl, captured⟩
  unfold Clause.judge
  rw [renamed.result.length]
  exact added.resolve _ _

theorem abort (o : Operation) (role : Role) (text : String) {s s' : Option Snapshot}
    (captured : Option.Rel (Snapshot.Renamed R) s s') :
    (c.abort o role text s).Renamed R (c'.abort o role text s') :=
  (renamed.add ⟨s', rfl, captured⟩).setStatus .exception

theorem openGroup : c.openGroup.Renamed R c'.openGroup := by
  have opened := (renamed.setStatus .pass).add (.same (.logic .blockStart (some .pass)) rfl)
  exact { opened with
    active := rfl, deferred := rfl, restore := .none, depth := congrArg (· + 1) renamed.depth }

theorem closeGroup {outer outer' : Clause} (around : outer.Renamed R outer') :
    Steps R (Clause.closeGroup outer c) (Clause.closeGroup outer' c') := by
  have resumed : (Clause.resume outer c).Renamed R (Clause.resume outer' c') := by
    unfold Clause.resume
    rw [around.result.status]
    exact { renamed.setStatus outer.result.status with
      active := around.active, deferred := around.deferred, restore := around.restore }
  unfold Clause.closeGroup
  simp only [renamed.result.length, renamed.result.status, around.result.status]
  exact (resumed.add (.same (.logic .blockEnd (some outer.result.status)) rfl)).resolve _ _

end Clause.Renamed

end Assay
