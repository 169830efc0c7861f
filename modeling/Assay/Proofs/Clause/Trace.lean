import Assay.Clause.Basic

/-! # What the steps of a clause record

A trace grows by one record with every call; records that are already there are filled in but
never replaced.  Links apart, adding a record is an append, so the steps are described here by the
records without their links.
-/

namespace Assay

/-- The record without its place in a trace. -/
def Record.unlinked (r : Record) : Record :=
  { r with index := none, previous := none, next := none }

namespace Record

@[simp] theorem unlinked_operation (r : Record) : r.unlinked.operation = r.operation := rfl
@[simp] theorem unlinked_left (r : Record) : r.unlinked.left = r.left := rfl
@[simp] theorem unlinked_status (r : Record) : r.unlinked.status = r.status := rfl
@[simp] theorem unlinked_invert (r : Record) : r.unlinked.invert = r.invert := rfl
@[simp] theorem unlinked_isResolved (r : Record) : r.unlinked.isResolved = r.isResolved := rfl

end Record

theorem map_modify {α β : Type} {f : α → α} {f' : β → β} {g : α → β} (t : List α) (i : Nat)
    (commutes : ∀ r, g (f r) = f' (g r)) : (t.modify i f).map g = (t.map g).modify i f' := by
  induction t generalizing i with
  | nil => simp
  | cons r rest ih => cases i <;> simp [commutes, ih]

theorem map_modify_same {α β : Type} {f : α → α} {g : α → β} (t : List α) (i : Nat)
    (same : ∀ r, g (f r) = g r) : (t.modify i f).map g = t.map g := by
  have mapped : (t.modify i f).map g = (t.map g).modify i id := map_modify t i same
  rw [mapped, List.modify_id]

theorem modify_append_last {α : Type} (t : List α) (r : α) (f : α → α) :
    (t ++ [r]).modify t.length f = t ++ [f r] := by
  induction t with
  | nil => rfl
  | cons _ rest ih => simp [ih]

theorem modify_append_before {α : Type} {t : List α} {i : Nat} (before : i < t.length) (r : α)
    (f : α → α) : (t ++ [r]).modify i f = t.modify i f ++ [r] := by
  induction t generalizing i with
  | nil => simp at before
  | cons _ rest ih =>
      cases i with
      | zero => simp
      | succ i => simp [ih (by simpa using before)]

namespace Clause

variable (c : Clause)

/-- The records of a clause without their links. -/
def entries : List Record := c.result.trace.map Record.unlinked

@[simp] theorem length_entries : c.entries.length = c.result.trace.length := by
  simp [entries]

theorem getElem?_entries (i : Nat) : c.entries[i]? = c.result.trace[i]?.map Record.unlinked := by
  simp [entries]

/-! ## Adding and filling in -/

@[simp] theorem entries_add (r : Record) : (c.add r).entries = c.entries ++ [r.unlinked] := by
  have linked : (c.result.trace.modify (c.result.trace.length - 1) fun last =>
      { last with next := some c.result.trace.length }).map Record.unlinked = c.entries :=
    map_modify_same _ _ fun _ => rfl
  simp only [entries, add, TestResult.add, List.map_append, List.map_cons, List.map_nil] at linked ⊢
  rw [linked]
  rfl

theorem entries_modify {f : Record → Record} (i : Nat)
    (commutes : ∀ r, (f r).unlinked = f r.unlinked) :
    (c.modify i f).entries = c.entries.modify i f :=
  map_modify _ _ commutes

/-! ## What waits -/

theorem operatorAt?_eq (i : Nat) :
    c.operatorAt? i = c.entries[i]?.bind (·.operation.operator?) := by
  simp [operatorAt?, getElem?_entries, Option.bind_map, Function.comp_def]

theorem waiting?_eq : c.waiting? = c.active.bind fun i => c.entries[i]?.bind fun r =>
    if r.isResolved then none else r.operation.operator?.map (i, ·) := by
  simp only [waiting?, getElem?_entries, Option.bind_map]
  rfl

theorem activeStatus?_eq :
    c.activeStatus? = c.active.bind fun i => c.entries[i]?.map (·.status) := by
  simp [activeStatus?, getElem?_entries, Function.comp_def]

theorem left_eq (i : Nat) :
    c.result.trace[i]?.bind (·.left) = c.entries[i]?.bind (·.left) := by
  simp [getElem?_entries, Option.bind_map, Function.comp_def]

/-- An operator waits at the active record, which is one of its kind and still open. -/
theorem waiting?_eq_some {a : Nat} {op : Operator} : c.waiting? = some (a, op) ↔
    c.active = some a ∧ ∃ r, c.entries[a]? = some r ∧ r.status = .notImplemented ∧
      r.operation.operator? = some op := by
  rw [waiting?_eq]
  cases active : c.active with
  | none => simp
  | some i =>
      cases found : c.entries[i]? with
      | none => simp only [Option.bind_some, found, Option.bind_none, Option.some.injEq]; grind
      | some r =>
          by_cases waits : r.status = .notImplemented
          · simp only [Option.bind_some, found, Record.isResolved, Status.isResolved, waits]
            simp
            grind
          · simp [found, Record.isResolved, Status.isResolved, waits]
            grind

/-- The operator that a `not` has deferred, and its index. -/
def deferred? : Option (Nat × Operator) :=
  c.deferred.bind fun i => (c.operatorAt? i).map (i, ·)

theorem deferred?_eq_some {d : Nat} {op : Operator} : c.deferred? = some (d, op) ↔
    c.deferred = some d ∧ ∃ r, c.entries[d]? = some r ∧ r.operation.operator? = some op := by
  cases deferred : c.deferred with
  | none => simp [deferred?, deferred]
  | some i =>
      cases found : c.entries[i]? with
      | none => simp [deferred?, deferred, operatorAt?_eq, found]; grind
      | some r => simp [deferred?, deferred, operatorAt?_eq, found]; grind

/-- Filling in records makes no operator of what is none. -/
theorem operatorAt?_modify {f : Record → Record} (i j : Nat)
    (same : ∀ r, (f r).operation = r.operation) :
    (c.modify i f).operatorAt? j = c.operatorAt? j := by
  unfold operatorAt? modify TestResult.modify
  dsimp only
  rw [List.getElem?_modify]
  cases c.result.trace[j]? <;> simp
  split <;> simp [same]

theorem waiting?_modify {f : Record → Record} (i : Nat)
    (same : ∀ r, (f r).operation = r.operation ∧ (f r).status = r.status) :
    (c.modify i f).waiting? = c.waiting? := by
  unfold waiting? modify TestResult.modify
  dsimp only
  cases c.active with
  | none => rfl
  | some j =>
      simp only [Option.bind_eq_bind, Option.bind_some]
      rw [List.getElem?_modify]
      cases c.result.trace[j]? with
      | none => rfl
      | some r =>
          by_cases here : i = j
          · simp only [here, if_true, Option.map_eq_map, Option.map_some, Option.bind_some,
              Record.isResolved, (same r).1, (same r).2]
            rfl
          · simp [here]

/-- The record of a verdict is itself no operator. -/
theorem operatorAt?_add {r : Record} (judged : r.operation.operator? = none) (i : Nat) :
    (c.add r).operatorAt? i = c.operatorAt? i := by
  rw [operatorAt?_eq, operatorAt?_eq, entries_add]
  rcases Nat.lt_trichotomy i c.entries.length with before | new | beyond
  · rw [List.getElem?_append_left before]
  · simp [new, judged]
  · rw [List.getElem?_eq_none (l := c.entries) (by omega),
      List.getElem?_eq_none (by simp only [List.length_append, List.length_singleton]; omega)]

/-- A record that is no open operator is nothing that waits. -/
theorem waiting?_add {r : Record}
    (idle : r.operation.operator? = none ∨ r.status ≠ .notImplemented) :
    (c.add r).waiting? = c.waiting? := by
  rw [waiting?_eq, waiting?_eq]
  cases active : c.active with
  | none => simp [add, active]
  | some i =>
      have same : (c.add r).active = some i := active
      rw [same, entries_add]
      simp only [Option.bind_some]
      rcases Nat.lt_trichotomy i c.entries.length with before | new | beyond
      · rw [List.getElem?_append_left before]
      · rcases idle with other | resolved
        · simp [new, other]
        · simp [new, Record.isResolved, Status.isResolved, resolved]
      · rw [List.getElem?_eq_none (l := c.entries) (by omega),
          List.getElem?_eq_none (by simp only [List.length_append, List.length_singleton]; omega)]

theorem deferred?_add {r : Record} (judged : r.operation.operator? = none) :
    (c.add r).deferred? = c.deferred? := by
  simp only [deferred?, c.operatorAt?_add judged]
  rfl

theorem deferred?_modify {f : Record → Record} (i : Nat)
    (same : ∀ r, (f r).operation = r.operation) : (c.modify i f).deferred? = c.deferred? := by
  simp only [deferred?, c.operatorAt?_modify i _ same]
  rfl

/-! ## The steps that only add -/

theorem entries_issue (op : Operator) (left : Status) : (c.issue op left).entries =
    c.entries ++ [(Record.logic (.logic op) (some left)).unlinked] :=
  entries_add _ _

/-- An operator follows a resolved chain, or it is a `not` that defers the one that waits. -/
theorem addOperator_cases {op : Operator} {step : Clause × List String}
    (issued : c.addOperator op = .ok step) :
    (c.waiting? = none ∧ ∃ left, step.1 = c.issue op left ∧
      (op ≠ .not → left = c.activeStatus?.getD c.result.status)) ∨
    ∃ a op' left, c.waiting? = some (a, op') ∧ op = .not ∧
      step.1 = { c with deferred := some a }.issue .not left := by
  unfold addOperator at issued
  split at issued
  · rename_i a op' waits
    simp only [Except.ok.injEq] at issued
    exact .inr ⟨a, op', _, waits, rfl, by rw [← issued]⟩
  · rename_i idle
    simp only [Except.ok.injEq] at issued
    exact .inl ⟨idle, _, by rw [← issued], by simp⟩
  · cases issued
  · rename_i idle
    simp only [Except.ok.injEq] at issued
    exact .inl ⟨idle, _, by rw [← issued], fun _ => rfl⟩

theorem entries_issued {op : Operator} {step : Clause × List String}
    (issued : c.addOperator op = .ok step) : ∃ left,
    step.1.entries = c.entries ++ [(Record.logic (.logic op) (some left)).unlinked] := by
  rcases c.addOperator_cases issued with ⟨_, left, same, _⟩ | ⟨a, _, left, _, rfl, same⟩
  · exact ⟨left, same ▸ c.entries_issue op left⟩
  · exact ⟨left, same ▸ ({ c with deferred := some a } : Clause).entries_issue .not left⟩

theorem entries_openGroup : c.openGroup.entries =
    c.entries ++ [(Record.logic .blockStart (some .pass)).unlinked] :=
  entries_add _ _

section setSubject

variable (o : Operation) (captured : Option Snapshot) (v : Value)

theorem entries_setSubject : (c.setSubject o captured v).entries =
    c.entries ++ [{ Record.setter o with captured }.unlinked] := by
  unfold setSubject
  dsimp only
  split <;> exact entries_add c _

theorem setSubject_status : (c.setSubject o captured v).result.status =
    if c.result.status = .notImplemented then .pass else c.result.status := by
  unfold setSubject
  dsimp only
  split <;> rename_i isOpen
  · exact (if_pos isOpen).symm
  · exact (if_neg isOpen).symm

@[simp] theorem setSubject_active : (c.setSubject o captured v).active = c.active := by
  unfold setSubject
  dsimp only
  split <;> rfl

@[simp] theorem setSubject_deferred : (c.setSubject o captured v).deferred = c.deferred := by
  unfold setSubject
  dsimp only
  split <;> rfl

theorem waiting?_setSubject : (c.setSubject o captured v).waiting? = c.waiting? := by
  rw [← c.waiting?_add (r := { Record.setter o with captured }) (.inr (by simp [Record.setter])),
    waiting?_eq, waiting?_eq, entries_setSubject, entries_add, setSubject_active]
  rfl

end setSubject

theorem entries_abort (o : Operation) (role : Role) (text : String) (captured : Option Snapshot) :
    (c.abort o role text captured).entries =
      c.entries ++ [{ Record.exception o role text with captured }.unlinked] :=
  entries_add c _

end Clause

end Assay
