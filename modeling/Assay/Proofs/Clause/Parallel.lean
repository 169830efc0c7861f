import Assay.Proofs.Clause.Lockstep
import Assay.Proofs.Clause.Places

/-! # Chains with different pasts

Two chains that have the same subject and whose records from some place on are the same go on in
the same way, whatever stands before.  What waits, the left sides that operators have and the fail
point are then found at places that correspond.
-/

namespace Assay

/-- How the places of two traces correspond: up to some place they are the same ones, and from a
    turn in each of them on they go side by side.  Around the turns groups can be open. -/
structure Offset where
  common : Nat
  first : Nat
  second : Nat
  outer : Nat := 0
  outer' : Nat := 0
  before : common ≤ first
  before' : common ≤ second
  level : outer = 0 ↔ outer' = 0

/-- Two places correspond. -/
inductive Offset.Meets (o : Offset) : Nat → Nat → Prop where
  | common {i} : i < o.common → o.Meets i i
  | later (k : Nat) : o.Meets (o.first + k) (o.second + k)

namespace Offset

variable {o : Offset} {i j a a' : Nat}

theorem Meets.eq_iff (one : o.Meets i j) (other : o.Meets a a') : i = a ↔ j = a' := by
  have := o.before
  have := o.before'
  cases one <;> cases other <;> omega

theorem meets_turn (o : Offset) : o.Meets o.first o.second := .later 0

end Offset

/-- Two records of verdicts that came out alike. -/
structure Record.Agrees (r r' : Record) : Prop where
  judged : r.operation.operator? = none
  judged' : r'.operation.operator? = none
  right : r'.right = r.right
  status : r'.status = r.status
  invert : r'.invert = r.invert

/-- Two traces are the same at places that correspond, but for the records of verdicts that came
    out alike at their turns. -/
structure Beside (o : Offset) (es es' : List Record) : Prop where
  length : ∃ k, es.length = o.first + 1 + k ∧ es'.length = o.second + 1 + k
  same : ∀ {i j}, o.Meets i j → i ≠ o.first → es'[j]? = es[i]?
  turn : ∃ r r', es[o.first]? = some r ∧ es'[o.second]? = some r' ∧ r.Agrees r'

namespace Beside

variable {o : Offset} {es es' : List Record} (beside : Beside o es es')

include beside

/-- What is entered next corresponds as well. -/
theorem meets_length : o.Meets es.length es'.length := by
  obtain ⟨k, first, second⟩ := beside.length
  rw [first, second, Nat.add_assoc, Nat.add_assoc]
  exact .later (1 + k)

theorem append (r : Record) : Beside o (es ++ [r]) (es' ++ [r]) := by
  obtain ⟨k, first, second⟩ := beside.length
  have := o.before
  have := o.before'
  refine ⟨⟨k + 1, by simp [first]; omega, by simp [second]; omega⟩, fun {i j} meets apart => ?_, ?_⟩
  · have kept := beside.same meets apart
    cases meets with
    | common below =>
        rw [List.getElem?_append_left (by omega), List.getElem?_append_left (by omega), kept]
    | later n =>
        by_cases inside : n < 1 + k
        · rw [List.getElem?_append_left (by omega), List.getElem?_append_left (by omega), kept]
        · rw [List.getElem?_append_right (by omega), List.getElem?_append_right (by omega)]
          congr 1
          omega
  · obtain ⟨r₀, r₀', found, found', agrees⟩ := beside.turn
    exact ⟨r₀, r₀', by rw [List.getElem?_append_left (by omega), found],
      by rw [List.getElem?_append_left (by omega), found'], agrees⟩

theorem modify {a a' : Nat} (meets : o.Meets a a') (apart : a ≠ o.first) (f : Record → Record) :
    Beside o (es.modify a f) (es'.modify a' f) := by
  refine ⟨by simpa using beside.length, fun {i j} there away => ?_, ?_⟩
  · rw [List.getElem?_modify, List.getElem?_modify, beside.same there away]
    have here : a' = j ↔ a = i := (meets.eq_iff there).symm
    simp only [here]
  · obtain ⟨r, r', found, found', agrees⟩ := beside.turn
    have apart' : a' ≠ o.second := fun here => apart ((meets.eq_iff o.meets_turn).mpr here)
    exact ⟨r, r', by simp [apart, found],
      by simp [apart', found'], agrees⟩

/-- What is found at two places that correspond says the same to whoever looks for an operator. -/
theorem lookup {i j : Nat} (meets : o.Meets i j) : (i ≠ o.first ∧ es'[j]? = es[i]?) ∨
    ∃ r r', es[i]? = some r ∧ es'[j]? = some r' ∧ r.Agrees r' := by
  by_cases here : i = o.first
  · obtain rfl : j = o.second := (meets.eq_iff o.meets_turn).mp here
    exact .inr (here ▸ beside.turn)
  · exact .inl ⟨here, beside.same meets here⟩

end Beside

/-- Two slots that hold the same operator, at places that correspond, or nothing. -/
abbrev Offset.Slots (o : Offset) : Option (Nat × Operator) → Option (Nat × Operator) → Prop :=
  Option.Rel fun p q => o.Meets p.1 q.1 ∧ p.1 ≠ o.first ∧ q.2 = p.2

namespace Beside

variable {o : Offset} {es es' : List Record} (beside : Beside o es es')

include beside

theorem settleAt {a a' : Nat} (meets : o.Meets a a') (apart : a ≠ o.first) (op : Operator)
    (v : Status) : Beside o (settleAt es a op v).1 (settleAt es' a' op v).1 ∧
      (Assay.settleAt es' a' op v).2 = (Assay.settleAt es a op v).2 := by
  simp only [Assay.settleAt, beside.same meets apart, and_true]
  exact beside.modify meets apart _

theorem settleSlot {slot slot' : Option (Nat × Operator)} (slots : o.Slots slot slot')
    (v : Status) : Beside o (settleSlot es slot v).1 (settleSlot es' slot' v).1 ∧
      (Assay.settleSlot es' slot' v).2 = (Assay.settleSlot es slot v).2 := by
  cases slots with
  | none => exact ⟨beside, rfl⟩
  | @some p q both =>
      obtain ⟨a, op⟩ := p
      obtain ⟨a', op'⟩ := q
      obtain ⟨meets, apart, same⟩ := both
      cases same
      exact beside.settleAt meets apart op v

/-- Operators that are looked up at places that correspond are the same. -/
theorem slots {s s' : Option Nat} (places : Option.Rel o.Meets s s')
    (find : Record → Option Operator)
    (none_of : ∀ r, r.operation.operator? = none → find r = none) :
    o.Slots (s.bind fun i => es[i]?.bind fun r => (find r).map (i, ·))
      (s'.bind fun i => es'[i]?.bind fun r => (find r).map (i, ·)) := by
  cases places with
  | none => exact .none
  | @some i j meets =>
      simp only [Option.bind_some]
      rcases beside.lookup meets with ⟨apart, same⟩ | ⟨r, r', found, found', agrees⟩
      · rw [same]
        cases es[i]? with
        | none => exact .none
        | some r =>
            simp only [Option.bind_some]
            cases find r with
            | none => exact .none
            | some op => exact .some ⟨meets, apart, rfl⟩
      · rw [found, found', Option.bind_some, Option.bind_some, none_of r agrees.judged,
          none_of r' agrees.judged']
        exact .none

end Beside

/-- Two chains with different pasts that go on in the same way. -/
structure Parallel (o : Offset) (c c' : Clause) : Prop where
  options : c'.options = c.options
  subject : c'.subject = c.subject
  restore : c'.restore = c.restore
  status : c'.result.status = c.result.status
  depth : ∃ k, c.depth = o.outer + k ∧ c'.depth = o.outer' + k
  active : Option.Rel o.Meets c.active c'.active
  deferred : Option.Rel o.Meets c.deferred c'.deferred
  records : Beside o c.entries c'.entries
  /-- Around a group that is open fail points are none of its concern. -/
  failPoint : o.outer = 0 → Option.Rel o.Meets c.result.failPoint c'.result.failPoint

theorem Offset.slots_isSome {o : Offset} {slot slot' : Option (Nat × Operator)}
    (slots : o.Slots slot slot') : slot'.isSome = slot.isSome := by
  cases slots <;> rfl

/-- Places before the turns are the same ones in both traces. -/
theorem Offset.places {o : Offset} {p : Option Nat} (before : ∀ i, p = some i → i < o.common) :
    Option.Rel o.Meets p p := by
  cases p with
  | none => exact .none
  | some i => exact .some (.common (before i rfl))

theorem Offset.failPointAfter {o : Offset} {p p' : Option Nat} {i i' : Nat}
    (points : Option.Rel o.Meets p p') (places : o.Meets i i') (s : Status) : Option.Rel o.Meets
      (Clause.failPointAfter p i s) (Clause.failPointAfter p' i' s) := by
  unfold Clause.failPointAfter
  split
  · cases points with
    | none => exact .some places
    | some meets => exact .some meets
  · split
    · exact .none
    · exact points

namespace Parallel

open Clause

variable {o : Offset} {c c' : Clause} (parallel : Parallel o c c')

include parallel

theorem tracing : c'.tracing = c.tracing := by
  rw [Clause.tracing, Clause.tracing, parallel.options]

theorem picture (h : Heap) (v : Value) : c'.picture h v = c.picture h v := by
  rw [Clause.picture, Clause.picture, parallel.tracing]

theorem pictured {P : Heap → Value → Prop} {v : Value} {s s' : Option Snapshot}
    (pictured : Pictured P c c' v s s') : s' = s :=
  pictured.eq_of_picture fun h => parallel.picture h v

/-! ## What waits -/

theorem waiting? : o.Slots c.waiting? c'.waiting? := by
  have found := parallel.records.slots parallel.active
    (fun r => if r.isResolved then none else r.operation.operator?) fun r idle => by simp [idle]
  have same (c : Clause) : c.waiting? = c.active.bind fun i => c.entries[i]?.bind fun r =>
      (if r.isResolved then none else r.operation.operator?).map (i, ·) := by
    rw [waiting?_eq]
    congr 2
    funext i
    congr 1
    funext r
    split <;> rfl
  rw [same, same]
  exact found

theorem deferred? : o.Slots c.deferred? c'.deferred? := by
  have found := parallel.records.slots parallel.deferred (·.operation.operator?) fun _ idle => idle
  have same (c : Clause) : c.deferred? = c.deferred.bind fun i => c.entries[i]?.bind fun r =>
      r.operation.operator?.map (i, ·) := by
    simp only [Clause.deferred?, operatorAt?_eq, Option.map_bind]
    rfl
  rw [same, same]
  exact found

theorem activeStatus? : c'.activeStatus? = c.activeStatus? := by
  rw [activeStatus?_eq, activeStatus?_eq]
  have places := parallel.active
  revert places
  generalize c.active = s
  generalize c'.active = s'
  intro places
  cases places with
  | none => rfl
  | some meets =>
      simp only [Option.bind_some]
      rcases parallel.records.lookup meets with ⟨_, same⟩ | ⟨r, r', found, found', agrees⟩
      · rw [same]
      · rw [found, found', Option.map_some, Option.map_some, agrees.status]

theorem inverts : c'.inverts = c.inverts := by
  have waits := parallel.waiting?
  unfold Clause.inverts
  revert waits
  generalize c.waiting? = s
  generalize c'.waiting? = s'
  intro waits
  cases waits with
  | none => rfl
  | some both => simp only [Option.any_some, both.2.2]

/-- Operators that wait are given a verdict alike. -/
theorem settled (v : Status) : Beside o (c.settled v).1 (c'.settled v).1 ∧
    (c'.settled v).2 = (c.settled v).2 := by
  have waits := parallel.waiting?
  have pushed := parallel.deferred?
  unfold Clause.settled
  revert waits
  generalize c.waiting? = s
  generalize c'.waiting? = s'
  intro waits
  cases waits with
  | none => exact ⟨parallel.records, rfl⟩
  | @some p q both =>
      obtain ⟨a, op⟩ := p
      obtain ⟨a', op'⟩ := q
      obtain ⟨meets, apart, same⟩ := both
      cases same
      have first := parallel.records.settleAt meets apart op v
      dsimp only
      rw [first.2]
      exact first.1.settleSlot pushed _

/-! ## Steps -/

theorem meets_length : o.Meets c.result.trace.length c'.result.trace.length := by
  simpa using parallel.records.meets_length

theorem issue (op : Operator) (left : Status) :
    Parallel o (c.issue op left) (c'.issue op left) where
  options := parallel.options
  subject := parallel.subject
  restore := parallel.restore
  status := rfl
  depth := parallel.depth
  active := .some parallel.meets_length
  deferred := parallel.deferred
  records := by
    rw [entries_issue, entries_issue]
    exact parallel.records.append _
  failPoint := parallel.failPoint

/-- An operator is refused in both chains, or it waits in both of them. -/
theorem addOperator (op : Operator) :
    (∃ m, c.addOperator op = .error m ∧ c'.addOperator op = .error m) ∨
      ∃ step step', c.addOperator op = .ok step ∧ c'.addOperator op = .ok step' ∧
        Parallel o step.1 step'.1 := by
  have waits := parallel.waiting?
  unfold Clause.addOperator
  rw [parallel.activeStatus?, parallel.status]
  cases first : c.waiting? with
  | none =>
      cases second : c'.waiting? with
      | some q => rw [first, second] at waits; cases waits
      | none => cases op <;> exact .inr ⟨_, _, rfl, rfl, parallel.issue _ _⟩
  | some p =>
      obtain ⟨a, waiting⟩ := p
      cases second : c'.waiting? with
      | none => rw [first, second] at waits; cases waits
      | some q =>
          obtain ⟨a', waiting'⟩ := q
          rw [first, second] at waits
          cases waits with
          | some both =>
              obtain ⟨meets, _, same⟩ := both
              cases same
              have pushed : Parallel o { c with deferred := some a }
                  { c' with deferred := some a' } :=
                { parallel with deferred := .some meets }
              cases op with
              | not => exact .inr ⟨_, _, rfl, rfl, pushed.issue _ _⟩
              | and | or | xor => exact .inl ⟨_, rfl, rfl⟩

theorem setSubject (op : Operation) (s : Option Snapshot) (v : Value) :
    Parallel o (c.setSubject op s v) (c'.setSubject op s v) where
  options := by
    rw [(sameLevel_setSubject ..).options, (sameLevel_setSubject ..).options]
    exact parallel.options
  subject := rfl
  restore := rfl
  status := by rw [setSubject_status, setSubject_status, parallel.status]
  depth := by
    rw [(sameLevel_setSubject ..).depth, (sameLevel_setSubject ..).depth]
    exact parallel.depth
  active := by simpa using parallel.active
  deferred := by simpa using parallel.deferred
  records := by
    rw [entries_setSubject, entries_setSubject]
    exact parallel.records.append _
  failPoint := by simpa using parallel.failPoint

theorem abort (op : Operation) (role : Role) (text : String) (s : Option Snapshot) :
    Parallel o (c.abort op role text s) (c'.abort op role text s) where
  options := parallel.options
  subject := parallel.subject
  restore := parallel.restore
  status := rfl
  depth := parallel.depth
  active := parallel.active
  deferred := parallel.deferred
  records := by
    rw [entries_abort, entries_abort]
    exact parallel.records.append _
  failPoint := parallel.failPoint

theorem openGroup : Parallel o c.openGroup c'.openGroup where
  options := parallel.options
  subject := parallel.subject
  restore := rfl
  status := rfl
  depth := by
    obtain ⟨k, first, second⟩ := parallel.depth
    exact ⟨k + 1, by simp only [Clause.openGroup]; omega, by simp only [Clause.openGroup]; omega⟩
  active := .none
  deferred := .none
  records := by
    rw [entries_openGroup, entries_openGroup]
    exact parallel.records.append _
  failPoint := parallel.failPoint

/-- A verdict that is recorded in both chains settles what waits in them alike. -/
theorem verdict {r : Record} (judged : r.operation.operator? = none) (v : Status) :
    Parallel o ((c.add r).resolve c.result.trace.length v).1
      ((c'.add r).resolve c'.result.trace.length v).1 := by
  obtain ⟨status, active, deferred, entries⟩ := c.resolve_add judged v
  obtain ⟨status', active', deferred', entries'⟩ := c'.resolve_add judged v
  have settled := parallel.settled v
  have waits := Offset.slots_isSome parallel.waiting?
  have pushed := Offset.slots_isSome parallel.deferred?
  have same := status'.trans (settled.2.trans status.symm)
  have depth : o.outer = 0 → (c'.add r).depth = (c.add r).depth := by
    intro top
    obtain ⟨k, first, second⟩ := parallel.depth
    have := o.level.mp top
    exact (second.trans (by omega)).trans first.symm
  exact {
    options := by
      rw [resolve_options, resolve_options]
      exact parallel.options
    subject := by
      rw [resolve_subject, resolve_subject]
      show c'.restore.or c'.subject = c.restore.or c.subject
      rw [parallel.restore, parallel.subject]
    restore := by rw [resolve_restore, resolve_restore]
    status := same
    depth := by
      rw [resolve_depth, resolve_depth]
      exact parallel.depth
    active := by
      rw [active, active']
      exact .some parallel.meets_length
    deferred := by
      rw [deferred, deferred', waits, pushed]
      split
      · exact .none
      · exact parallel.deferred
    records := by
      rw [entries, entries', parallel.inverts, settled.2]
      exact settled.1.append _
    failPoint := fun top => by
      rw [resolve_failPoint, resolve_failPoint, depth top, same]
      split
      · exact Offset.failPointAfter (parallel.failPoint top) parallel.meets_length _
      · exact parallel.failPoint top }

/-- Leaving a group leads back to as many open groups as there were around it. -/
theorem leaveGroup {inner inner' : Clause} (inside : Parallel o inner inner')
    (evolved : Evolved c.openGroup inner) (evolved' : Evolved c'.openGroup inner') :
    Parallel o { inner with depth := inner.depth - 1 } { inner' with depth := inner'.depth - 1 } :=
  { inside with
    depth := by
      obtain ⟨k, first, second⟩ := parallel.depth
      have deep : inner.depth = c.depth + 1 := (evolved SameLevel sameLevel_evolution).depth
      have deep' : inner'.depth = c'.depth + 1 := (evolved' SameLevel sameLevel_evolution).depth
      exact ⟨k, by dsimp only; omega, by dsimp only; omega⟩ }

theorem closeGroup {inner inner' : Clause} (inside : Parallel o inner inner') :
    Parallel o (Clause.closeGroup c inner).1 (Clause.closeGroup c' inner').1 := by
  have resumed : Parallel o (resume c inner) (resume c' inner') :=
    { inside with
      restore := parallel.restore
      status := parallel.status
      active := parallel.active
      deferred := parallel.deferred }
  unfold Clause.closeGroup
  dsimp only
  rw [inside.status, parallel.status]
  exact resumed.verdict (r := .logic .blockEnd (some c.result.status)) rfl _

end Parallel

/-- Chains with different pasts stay in lockstep, whatever code does. -/
theorem parallel_paired (o : Offset) (P : Heap → Value → Prop) : Paired Eq P (Parallel o) where
  remember v same parallel := by
    rw [Clause.remember, Clause.remember, parallel.tracing, same]
  subject parallel := parallel.subject
  status parallel := parallel.status
  picture := by
    intro c c' h v parallel _
    rw [parallel.picture h v]
    cases c.picture h v with
    | error f => exact .inl ⟨f, rfl, rfl⟩
    | ok s => exact .inr ⟨s, s, rfl, rfl⟩
  issue op parallel := parallel.addOperator op
  setSubject op _ parallel pictured := parallel.pictured pictured ▸ parallel.setSubject op _ _
  pick x parallel pictured := by
    cases parallel.pictured pictured
    exact { parallel.setSubject .pick _ _ with restore := rfl }
  judge m matched parallel pictured :=
    parallel.pictured pictured ▸ parallel.verdict (by cases m <;> rfl) _
  abort op role text parallel pictured :=
    parallel.pictured pictured ▸ parallel.abort op role text _
  openGroup parallel := parallel.openGroup
  leaveGroup outer inner evolved evolved' := outer.leaveGroup inner evolved evolved'
  closeGroup outer inner evolved evolved' _ :=
    outer.closeGroup (outer.leaveGroup inner evolved evolved')

end Assay
