import Assay.Proofs.Clause.Trace

/-! # What a verdict comes to

A verdict is combined with the operator that waits for it, and what that gives with the operator
that a `not` has deferred.  `Clause.settled` is this effect on the records; the steps that give a
verdict, those of a matcher and of the end of a group, come down to it.
-/

namespace Assay

/-- Gives the operator of a record its verdict. -/
def settleAt (records : List Record) (i : Nat) (op : Operator) (v : Status) :
    List Record × Status :=
  let status := op.combine (records[i]?.bind (·.left)) v
  (records.modify i fun r => { r with right := v, status }, status)

/-- Gives the operator in a slot its verdict, if there is one. -/
def settleSlot (records : List Record) (slot : Option (Nat × Operator)) (v : Status) :
    List Record × Status :=
  match slot with
  | none => (records, v)
  | some (i, op) => settleAt records i op v

@[simp] theorem length_settleAt (records : List Record) (i : Nat) (op : Operator) (v : Status) :
    (settleAt records i op v).1.length = records.length := by
  simp [settleAt]

@[simp] theorem length_settleSlot (records : List Record) (slot : Option (Nat × Operator))
    (v : Status) : (settleSlot records slot v).1.length = records.length := by
  unfold settleSlot
  split <;> simp

/-- A verdict changes nothing to the left of an operator. -/
theorem left_settleAt (records : List Record) (i j : Nat) (op : Operator) (v : Status) :
    (settleAt records i op v).1[j]?.bind (·.left) = records[j]?.bind (·.left) := by
  simp only [settleAt, List.getElem?_modify]
  cases records[j]? with
  | none => rfl
  | some r =>
      by_cases here : i = j
      · simp [here]
      · simp [here]

theorem settleAt_append {records : List Record} {i : Nat} (before : i < records.length)
    (r : Record) (op : Operator) (v : Status) : settleAt (records ++ [r]) i op v =
      ((settleAt records i op v).1 ++ [r], (settleAt records i op v).2) := by
  simp only [settleAt, List.getElem?_append_left before, modify_append_before before]

namespace Clause

variable (c : Clause)

/-- The records and the status of the chain once the operators that wait have been given a
    verdict. -/
def settled (v : Status) : List Record × Status :=
  match c.waiting? with
  | none => (c.entries, v)
  | some (a, op) =>
    let first := settleAt c.entries a op v
    settleSlot first.1 c.deferred? first.2

@[simp] theorem length_settled (v : Status) :
    (c.settled v).1.length = c.result.trace.length := by
  unfold settled
  split <;> simp

/-- A verdict fills in the records of the operators that wait and no others. -/
theorem getElem?_settled (v : Status) {j : Nat} (waiting : ∀ a op, c.waiting? = some (a, op) → a ≠ j)
    (deferred : ∀ d, c.deferred = some d → d ≠ j) : (c.settled v).1[j]? = c.entries[j]? := by
  unfold settled
  split
  · rfl
  · rename_i a op waits
    have apart := waiting a op waits
    unfold settleSlot
    split
    · simp [settleAt, apart]
    · rename_i d op' pushed
      have apart' := deferred d (c.deferred?_eq_some.mp pushed).1
      simp [settleAt, apart, apart']

/-- Whether a verdict is shown the other way round. -/
def inverts : Bool := c.waiting?.any (·.2 == .not)

/-! ## The parts of a verdict -/

theorem settle_entries (i : Nat) (op : Operator) (v : Status) :
    (c.settle i op v).1.entries = (settleAt c.entries i op v).1 := by
  simp only [settleAt, ← left_eq]
  exact entries_modify c i fun _ => rfl

theorem settle_status (i : Nat) (op : Operator) (v : Status) :
    (c.settle i op v).2.1 = (settleAt c.entries i op v).2 := by
  simp only [settleAt, ← left_eq]
  rfl

theorem settle_deferred? (i : Nat) (op : Operator) (v : Status) :
    (c.settle i op v).1.deferred? = c.deferred? :=
  deferred?_modify c i fun _ => rfl

theorem settleDeferred_eq (v : Status) : c.settleDeferred v =
    match c.deferred? with
    | none => (c, v, [])
    | some (d, op) => ({ (c.settle d op v).1 with deferred := none }, (c.settle d op v).2.1,
        [s!"deferred {(c.settle d op v).2.2}"]) := rfl

theorem settleDeferred_entries (v : Status) :
    (c.settleDeferred v).1.entries = (settleSlot c.entries c.deferred? v).1 := by
  rw [settleDeferred_eq]
  cases c.deferred? with
  | none => rfl
  | some slot => exact c.settle_entries slot.1 slot.2 v

theorem settleDeferred_status (v : Status) :
    (c.settleDeferred v).2.1 = (settleSlot c.entries c.deferred? v).2 := by
  rw [settleDeferred_eq]
  cases c.deferred? with
  | none => rfl
  | some slot => exact c.settle_status slot.1 slot.2 v

theorem settleDeferred_deferred (v : Status) : (c.settleDeferred v).1.deferred =
    if c.deferred?.isSome then none else c.deferred := by
  rw [settleDeferred_eq]
  cases c.deferred? <;> rfl

/-- Notes a `not` in the record of the verdict that it turns round. -/
def noted (i : Nat) (op : Operator) : Clause :=
  if op = .not then c.modify i fun r => { r with invert := true } else c

@[simp] theorem noted_deferred (i : Nat) (op : Operator) :
    (c.noted i op).deferred = c.deferred := by
  unfold noted
  split <;> rfl

@[simp] theorem conclude_status (i : Nat) (s : Status) :
    (c.conclude i s).1.result.status = s := by
  unfold conclude
  dsimp only
  split <;> split <;> rfl

@[simp] theorem conclude_active (i : Nat) (s : Status) : (c.conclude i s).1.active = some i := by
  unfold conclude
  dsimp only
  split <;> split <;> rfl

@[simp] theorem conclude_deferred (i : Nat) (s : Status) :
    (c.conclude i s).1.deferred = c.deferred := by
  unfold conclude
  dsimp only
  split <;> split <;> rfl

theorem conclude_subject (i : Nat) (s : Status) :
    (c.conclude i s).1.subject = c.restore.or c.subject := by
  unfold conclude
  by_cases top : c.depth = 0
  · simp only [setStatus, modify, top, if_true]
    cases c.restore <;> rfl
  · simp only [setStatus, modify, top, if_false]
    cases c.restore <;> rfl

/-- A verdict brings back the subject that a `pick` has put aside. -/
theorem resolve_subject (i : Nat) (v : Status) :
    (c.resolve i v).1.subject = c.restore.or c.subject := by
  unfold resolve
  dsimp only
  split
  · exact conclude_subject _ _ _
  · rw [conclude_subject]
    unfold settleDeferred
    dsimp only
    split <;> split <;> rfl

@[simp] theorem entries_conclude (i : Nat) (s : Status) :
    (c.conclude i s).1.entries = c.entries.modify i fun r => { r with status := s } := by
  have filled : (c.modify i fun r => { r with status := s }).entries =
      c.entries.modify i fun r => { r with status := s } := entries_modify c i fun _ => rfl
  rw [← filled]
  unfold conclude
  dsimp only
  split <;> split <;> rfl

/-- The last record takes the status that its verdict amounts to. -/
theorem entries_conclude_noted {c : Clause} {es : List Record} {r : Record}
    (entries : c.entries = es ++ [r]) (op : Operator) (s : Status) :
    ((c.noted es.length op).conclude es.length s).1.entries =
      es ++ [{ r with status := s, invert := op == .not || r.invert }] := by
  by_cases inverted : op = .not
  · have noted : (c.noted es.length op).entries = es ++ [{ r with invert := true }] := by
      rw [Clause.noted, if_pos inverted,
        entries_modify (f := fun r => { r with invert := true }) _ _ fun _ => rfl, entries,
        modify_append_last]
    rw [entries_conclude, noted, modify_append_last]
    simp [inverted]
  · rw [entries_conclude, Clause.noted, if_neg inverted, entries, modify_append_last]
    simp [inverted]

/-! ## The whole of a verdict -/

/-- Notes in the record of a verdict what the matcher or the group has found. -/
def found (i : Nat) (v : Status) : Clause := c.modify i fun r => { r with right := v }

theorem waiting?_found (i : Nat) (v : Status) : (c.found i v).waiting? = c.waiting? :=
  c.waiting?_modify i fun _ => ⟨rfl, rfl⟩

theorem resolve_idle {i : Nat} {v : Status} (idle : c.waiting? = none) :
    (c.resolve i v).1 = ((c.found i v).conclude i v).1 := by
  have still : (c.modify i fun r => { r with right := v }).waiting? = none :=
    (c.waiting?_found i v).trans idle
  simp only [resolve, still]
  rfl

theorem resolve_waiting {i a : Nat} {op : Operator} {v : Status}
    (waits : c.waiting? = some (a, op)) :
    let first := (c.found i v).settle a op v
    let second := first.1.settleDeferred first.2.1
    (c.resolve i v).1 = ((second.1.noted i op).conclude i second.2.1).1 := by
  have still : (c.modify i fun r => { r with right := v }).waiting? = some (a, op) :=
    (c.waiting?_found i v).trans waits
  simp only [resolve, still]
  rfl

/-- The record of a verdict comes last, so that the operators are settled before it. -/
theorem settleSlot_append {records : List Record} {slot : Option (Nat × Operator)}
    (before : ∀ i op, slot = some (i, op) → i < records.length) (r : Record) (v : Status) :
    settleSlot (records ++ [r]) slot v =
      ((settleSlot records slot v).1 ++ [r], (settleSlot records slot v).2) := by
  cases slot with
  | none => rfl
  | some p => exact settleAt_append (before p.1 p.2 rfl) r p.2 v

/-- A verdict settles what waits for it, and its record, which comes last, says what that amounts
    to.  The record is what stands to the left of the next operator. -/
theorem resolve_add {r : Record} (judged : r.operation.operator? = none) (v : Status) :
    let c' := ((c.add r).resolve c.result.trace.length v).1
    c'.result.status = (c.settled v).2 ∧ c'.active = some c.result.trace.length ∧
      c'.deferred = (if c.waiting?.isSome ∧ c.deferred?.isSome then none else c.deferred) ∧
      c'.entries = (c.settled v).1 ++ [{ r.unlinked with
        right := v, status := (c.settled v).2, invert := c.inverts || r.invert }] := by
  intro c'
  have last : c.result.trace.length = c.entries.length := c.length_entries.symm
  let c₁ := (c.add r).found c.result.trace.length v
  have waits : (c.add r).waiting? = c.waiting? := c.waiting?_add (.inl judged)
  have entries₁ : c₁.entries = c.entries ++ [{ r.unlinked with right := v }] := by
    have filled : c₁.entries = (c.add r).entries.modify c.result.trace.length
        fun r => { r with right := v } := entries_modify _ _ fun _ => rfl
    rw [filled, entries_add, last, modify_append_last]
  cases pending : c.waiting? with
  | none =>
      have same : c' = (c₁.conclude c.result.trace.length v).1 :=
        (c.add r).resolve_idle (waits.trans pending)
      rw [same]
      refine ⟨by simp [settled, pending], by simp, by simp; rfl, ?_⟩
      rw [entries_conclude, entries₁, last, modify_append_last]
      simp [settled, pending, inverts]
  | some waiting =>
      obtain ⟨a, op⟩ := waiting
      obtain ⟨_, _, at_a, _, _⟩ := c.waiting?_eq_some.mp pending
      have before : a < c.entries.length := (List.getElem?_eq_some_iff.mp at_a).1
      have before' : ∀ d op', c.deferred? = some (d, op') →
          d < (settleAt c.entries a op v).1.length := by
        intro d op' pushed
        obtain ⟨_, _, at_d, _⟩ := c.deferred?_eq_some.mp pushed
        simpa using (List.getElem?_eq_some_iff.mp at_d).1
      -- Both operators stand before the new record, so settling them passes it by.
      let c₂ := (c₁.settle a op v).1
      let s := (c₁.settle a op v).2.1
      have settled : c.settled v = settleSlot (settleAt c.entries a op v).1 c.deferred?
          (settleAt c.entries a op v).2 := by
        simp only [Clause.settled, pending]
      have entries₂ : c₂.entries =
          (settleAt c.entries a op v).1 ++ [{ r.unlinked with right := v }] :=
        (c₁.settle_entries a op v).trans (by rw [entries₁, settleAt_append before])
      have status₂ : s = (settleAt c.entries a op v).2 :=
        (c₁.settle_status a op v).trans (by rw [entries₁, settleAt_append before])
      have pushed : c₂.deferred? = c.deferred? := by
        rw [settle_deferred?, ← c.deferred?_add judged]
        exact deferred?_modify _ _ fun _ => rfl
      have settled₂ : settleSlot c₂.entries c₂.deferred? s =
          ((c.settled v).1 ++ [{ r.unlinked with right := v }], (c.settled v).2) := by
        rw [pushed, entries₂, status₂, settleSlot_append before', settled]
      have entries₃ : (c₂.settleDeferred s).1.entries =
          (c.settled v).1 ++ [{ r.unlinked with right := v }] := by
        rw [settleDeferred_entries, settled₂]
      have status₃ : (c₂.settleDeferred s).2.1 = (c.settled v).2 := by
        rw [settleDeferred_status, settled₂]
      have same : c' = (((c₂.settleDeferred s).1.noted c.result.trace.length op).conclude
          c.result.trace.length (c₂.settleDeferred s).2.1).1 :=
        (c.add r).resolve_waiting (waits.trans pending)
      have length : c.result.trace.length = (c.settled v).1.length := by simp
      rw [same, status₃]
      refine ⟨by simp, by simp, ?_, ?_⟩
      · rw [conclude_deferred, noted_deferred, settleDeferred_deferred, pushed]
        simp
        rfl
      · rw [length, entries_conclude_noted entries₃]
        simp [inverts, pending]

end Clause

end Assay
