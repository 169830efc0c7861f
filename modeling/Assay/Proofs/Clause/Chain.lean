import Assay.Proofs.Clause.Element
import Assay.Proofs.Clause.Frame

/-! # What a clause makes of a chain

A clause keeps records of operators and two slots that name some of them.  `Shows` says which
records the slots name and what the status is when a chain has come as far as a tally says.  Each
step of a clause moves both on alike, so the status at the end of a chain is its outcome.
-/

namespace Assay

/-- The record is that of an operator with an outcome to its left. -/
def Record.Joins (r : Record) (op : Operator) (acc : Bool) : Prop :=
  r.operation.operator? = some op ∧
    ∀ l, op.combine r.left (.ofMatch l) = .ofMatch (op.apply acc l)

/-- The operator also waits for its verdict. -/
def Record.Waits (r : Record) (op : Operator) (acc : Bool) : Prop :=
  r.status = .notImplemented ∧ r.Joins op acc

namespace Clause

/-- A slot names a record with a property. -/
def At (c : Clause) (slot : Option Nat) (P : Record → Prop) : Prop :=
  ∃ a r, slot = some a ∧ c.entries[a]? = some r ∧ P r

/-- The slots name the last two of the operators that are pending, or the last verdict. -/
def Pending (c : Clause) (acc : Bool) : List Operator → Prop
  | [] => (c.active = none ∨ c.At c.active fun r => r.status = .ofMatch acc) ∧ c.deferred = none
  | [op] => c.At c.active (·.Waits op acc) ∧ c.deferred = none
  | op :: op' :: _ => c.At c.active (·.Waits op acc) ∧ c.At c.deferred (·.Joins op' acc)

/-- The clause is at the point of a chain that a tally describes. -/
def Shows (c : Clause) : Tally → Prop
  | .fresh => c.result.status = .notImplemented ∧ c.active = none ∧ c.deferred = none
  | .begun acc pending => c.subject.isSome ∧ c.Pending acc pending ∧
      (pending = [] → c.result.status = .ofMatch acc)

theorem ofMatch_ne_notImplemented (l : Bool) : Status.ofMatch l ≠ .notImplemented := by
  cases l <;> simp [Status.ofMatch]

variable {c c' : Clause} {acc : Bool} {pending : List Operator}

namespace Shows

theorem present (shows : c.Shows (.begun acc pending)) : c.subject.isSome := shows.1

theorem waits (shows : c.Shows (.begun acc pending)) : c.Pending acc pending := shows.2.1

theorem status (shows : c.Shows (.begun acc [])) : c.result.status = .ofMatch acc := shows.2.2 rfl

theorem restoreTo {t : Tally} (shows : c.Shows t) (v : Option Value) :
    Clause.Shows { c with restore := v } t := by
  cases t with
  | fresh => exact shows
  | begun acc pending => exact shows

theorem setDepth {t : Tally} (shows : c.Shows t) (n : Nat) :
    Clause.Shows { c with depth := n } t := by
  cases t with
  | fresh => exact shows
  | begun acc pending => exact shows

end Shows

/-! ## The slots -/

theorem At.waiting {op : Operator} (named : c.At c.active (·.Waits op acc)) :
    ∃ a r, c.waiting? = some (a, op) ∧ c.entries[a]? = some r ∧ r.Joins op acc := by
  obtain ⟨a, r, active, found, isOpen, joins⟩ := named
  exact ⟨a, r, c.waiting?_eq_some.mpr ⟨active, r, found, isOpen, joins.1⟩, found, joins⟩

theorem At.deferred {op : Operator} (named : c.At c.deferred (·.Joins op acc)) :
    ∃ d r, c.deferred? = some (d, op) ∧ c.entries[d]? = some r ∧ r.Joins op acc := by
  obtain ⟨d, r, deferred, found, joins⟩ := named
  exact ⟨d, r, c.deferred?_eq_some.mpr ⟨deferred, r, found, joins.1⟩, found, joins⟩

theorem deferred?_eq_none (empty : c.deferred = none) : c.deferred? = none := by
  simp [deferred?, empty]

theorem Pending.idle (idle : c.Pending acc []) : c.waiting? = none := by
  cases waits : c.waiting? with
  | none => rfl
  | some waiting =>
      obtain ⟨active, r, found, isOpen, _⟩ := c.waiting?_eq_some.mp waits
      rcases idle.1 with nothing | ⟨a, r', active', found', status⟩
      · cases nothing.symm.trans active
      · cases active'.symm.trans active
        cases found'.symm.trans found
        exact absurd (status.symm.trans isOpen) (ofMatch_ne_notImplemented acc)

/-- What a chain amounts to so far is what stands to the left of the next operator. -/
theorem Pending.activeStatus (idle : c.Pending acc []) {s : Status} (status : s = .ofMatch acc) :
    c.activeStatus?.getD s = .ofMatch acc := by
  rw [activeStatus?_eq]
  rcases idle.1 with nothing | ⟨a, r, active, found, verdict⟩
  · simpa [nothing] using status
  · simpa [active, found] using verdict

/-- The slots go on to name the same records where these are kept. -/
theorem Pending.extend (waits : c.Pending acc pending) (active : c'.active = c.active)
    (deferred : c'.deferred = c.deferred)
    (kept : ∀ (a : Nat) (r : Record), c.entries[a]? = some r → c'.entries[a]? = some r) :
    c'.Pending acc pending := by
  have moved {slot : Option Nat} {P : Record → Prop} : c.At slot P → c'.At slot P :=
    fun ⟨a, r, named, found, property⟩ => ⟨a, r, named, kept a r found, property⟩
  match pending, waits with
  | [], ⟨slot, empty⟩ => exact ⟨active ▸ slot.imp_right moved, deferred ▸ empty⟩
  | [_], ⟨slot, empty⟩ => exact ⟨active ▸ moved slot, deferred ▸ empty⟩
  | _ :: _ :: _, ⟨slot, slot'⟩ => exact ⟨active ▸ moved slot, deferred ▸ moved slot'⟩

theorem getElem?_append_of_eq_some {records : List Record} {a : Nat} {r x : Record}
    (found : records[a]? = some r) : (records ++ [x])[a]? = some r := by
  rw [List.getElem?_append_left (List.getElem?_eq_some_iff.mp found).1, found]

/-- A verdict is combined with the last two operators. -/
theorem Pending.settled (waits : c.Pending acc pending) (l : Bool) :
    (c.settled (.ofMatch l)).2 = .ofMatch (settleAll acc l pending) := by
  match pending, waits with
  | [], idle => simp only [Clause.settled, idle.idle, settleAll]
  | [op], ⟨slot, empty⟩ =>
      obtain ⟨a, r, waiting, found, joins⟩ := slot.waiting
      simp only [Clause.settled, waiting, deferred?_eq_none empty, settleSlot, settleAt, found,
        Option.bind_some, joins.2, settleAll]
  | op :: op' :: _, ⟨slot, slot'⟩ =>
      obtain ⟨a, r, waiting, found, joins⟩ := slot.waiting
      obtain ⟨d, r', deferred, found', joins'⟩ := slot'.deferred
      have first : (settleAt c.entries a op (.ofMatch l)).2 = .ofMatch (op.apply acc l) := by
        simp only [settleAt, found, Option.bind_some, joins.2]
      have left := left_settleAt c.entries a d op (.ofMatch l)
      rw [found', Option.bind_some] at left
      simp only [Clause.settled, waiting, deferred, settleSlot, first, settleAll]
      rw [← joins'.2, ← left]
      rfl

/-! ## The steps -/

/-- After a verdict a clause shows what the chain amounts to. -/
theorem shows_resolve (waits : c.Pending acc pending) (present : c.subject.isSome) {r : Record}
    (judged : r.operation.operator? = none) (l : Bool) :
    ((c.add r).resolve c.result.trace.length (.ofMatch l)).1.Shows
      (.begun (settleAll acc l pending) []) := by
  obtain ⟨status, active, deferred, entries⟩ := c.resolve_add judged (.ofMatch l)
  have outcome := waits.settled l
  have last : c.result.trace.length = (c.settled (.ofMatch l)).1.length := by simp
  -- The new record is active now, and whatever was deferred has been settled.
  refine ⟨?_, ⟨.inr ⟨c.result.trace.length, { r.unlinked with
      right := .ofMatch l, status := (c.settled (.ofMatch l)).2, invert := c.inverts || r.invert },
    active, ?_, outcome⟩, ?_⟩, fun _ => status.trans outcome⟩
  · rw [resolve_subject, Option.isSome_or]
    exact Bool.or_eq_true_iff.mpr (.inr present)
  · rw [entries, last, List.getElem?_concat_length]
  · rw [deferred]
    match pending, waits with
    | [], ⟨_, empty⟩ | [_], ⟨_, empty⟩ => simp [empty]
    | _ :: _ :: _, ⟨slot, slot'⟩ =>
        obtain ⟨a, _, waiting, _⟩ := slot.waiting
        obtain ⟨d, _, pushed, _⟩ := slot'.deferred
        simp [waiting, pushed]

theorem shows_judge (shows : c.Shows (.begun acc pending)) (m : Matcher)
    (captured : Option Snapshot) (l : Bool) :
    (c.judge m captured l).1.Shows (.begun (settleAll acc l pending) []) :=
  shows_resolve shows.waits shows.present (by cases m <;> rfl) l

/-- A group gives its verdict to the operators that its block has found and left in place. -/
theorem shows_closeGroup {outer inner : Clause} (shows : outer.Shows (.begun acc pending))
    {l : Bool} (ended : inner.Shows (.begun l []))
    (kept : ∀ j < outer.entries.length, inner.entries[j]? = outer.entries[j]?) :
    (closeGroup outer inner).1.Shows (.begun (settleAll acc l pending) []) := by
  have resumed : (resume outer inner).Pending acc pending :=
    shows.waits.extend rfl rfl fun a r found =>
      (kept a (List.getElem?_eq_some_iff.mp found).1).trans found
  rw [closeGroup, ended.status]
  exact shows_resolve resumed ended.present rfl l

/-- Setting the subject begins a chain and makes no other difference. -/
theorem shows_setSubject {t t' : Tally} (shows : c.Shows t) (took : t.take .setter = some t')
    (o : Operation) (captured : Option Snapshot) (v : Value) :
    (c.setSubject o captured v).Shows t' := by
  have status := c.setSubject_status o captured v
  cases t with
  | fresh =>
      cases took
      obtain ⟨isOpen, active, deferred⟩ := shows
      exact ⟨rfl, ⟨.inl (by simp [active]), by simp [deferred]⟩,
        fun _ => by rw [status, if_pos isOpen]; rfl⟩
  | begun acc pending =>
      cases took
      refine ⟨rfl, shows.waits.extend (by simp) (by simp) fun a r found => ?_, fun idle => ?_⟩
      · rw [entries_setSubject]
        exact getElem?_append_of_eq_some found
      · subst idle
        rw [status, shows.status, if_neg (ofMatch_ne_notImplemented acc)]

theorem joins_issue {op : Operator} {left : Status} (joins : op = .not ∨ left = .ofMatch acc) :
    (Record.logic (.logic op) (some left)).unlinked.Joins op acc := by
  refine ⟨rfl, fun l => ?_⟩
  rcases joins with rfl | rfl
  · exact Operator.combine_not _ _ _
  · exact Operator.combine_ofMatch _ _ _

theorem at_issue {op : Operator} {left : Status} (joins : op = .not ∨ left = .ofMatch acc) :
    (c.issue op left).At (c.issue op left).active (·.Waits op acc) := by
  refine ⟨c.result.trace.length, _, rfl, ?_, rfl, joins_issue joins⟩
  rw [entries_issue, ← length_entries, List.getElem?_concat_length]

/-- An operator that a chain can take is not refused. -/
theorem addOperator_accepts (shows : c.Shows (.begun acc pending)) {op : Operator}
    (legal : op = .not ∨ pending = []) : ∃ step, c.addOperator op = .ok step := by
  unfold addOperator
  rcases legal with rfl | rfl
  · cases c.waiting? <;> exact ⟨_, rfl⟩
  · rw [shows.waits.idle]
    cases op <;> exact ⟨_, rfl⟩

theorem shows_addOperator (shows : c.Shows (.begun acc pending)) {op : Operator}
    {step : Clause × List String} (issued : c.addOperator op = .ok step) :
    step.1.Shows (.begun acc (op :: pending)) := by
  have waits := shows.waits
  rcases c.addOperator_cases issued with
    ⟨idle, left, same, leads⟩ | ⟨a, op', left, waiting, rfl, same⟩
  · match pending, waits with
    | [], _ =>
        rw [same]
        refine ⟨shows.present, ⟨at_issue ?_, shows.waits.2⟩, by simp⟩
        by_cases negates : op = .not
        · exact .inl negates
        · exact .inr ((leads negates).trans (shows.waits.activeStatus shows.status))
    | [_], ⟨slot, _⟩ | _ :: _ :: _, ⟨slot, _⟩ =>
        obtain ⟨_, _, waiting, _⟩ := slot.waiting
        cases idle.symm.trans waiting
  · -- The operator that waits is deferred, and its record stays where it is.
    have pushed {op₁ : Operator} (slot : c.At c.active (·.Waits op₁ acc)) :
        step.1.Shows (.begun acc (.not :: op₁ :: [])) := by
      obtain ⟨a', r, active, found, _, joins⟩ := slot
      obtain ⟨active', _⟩ := c.waiting?_eq_some.mp waiting
      cases active.symm.trans active'
      rw [same]
      refine ⟨shows.present, ⟨at_issue (.inl rfl), a, r, rfl, ?_, joins⟩, by simp⟩
      rw [entries_issue]
      exact getElem?_append_of_eq_some found
    match pending, waits with
    | [], _ => cases shows.waits.idle.symm.trans waiting
    | [_], ⟨slot, _⟩ => exact pushed slot
    | _ :: _ :: _, ⟨slot, _⟩ => exact ⟨(pushed slot).present, (pushed slot).waits, by simp⟩

theorem shows_openGroup (present : c.subject.isSome) : c.openGroup.Shows (.begun true []) :=
  ⟨present, ⟨.inl rfl, rfl⟩, fun _ => rfl⟩

end Clause

end Assay
