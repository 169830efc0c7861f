import Assay.Proofs.Clause.Closing
import Assay.Proofs.Clause.Places
import Assay.Proofs.Clause.Slots

/-! # Operators in a row

Operators that are issued with no verdict in between wait in a row.  The last of the row is given
the next verdict, and the one before it what comes of that; a clause has no room for more, so all
others stay open for good.  A group begins a row of its own, and the row of its owner ends there.
-/

namespace Assay

/-- Whether an operator has been issued with a record. -/
def Record.issues (r : Record) : Bool :=
  r.role == .logic && r.operation.isOperator && r.errorText.isNone

/-- Whether a row of operators ends with a record: with a verdict, or because a group begins. -/
def Record.endsRow (r : Record) : Bool :=
  (r.role == .matcher || r.operation == .blockStart || r.operation == .blockEnd) &&
    r.errorText.isNone

/-- What a row of operators ends with, given the records after one of them. -/
def rowEnd? (later : List Record) : Option Operation :=
  (later.find? Record.endsRow).map (·.operation)

/-- How many operators of a row come after one of them, given the records after it. -/
def followers (later : List Record) : Nat :=
  (later.takeWhile fun r => !r.endsRow).countP Record.issues

/-- A row of operators ends with the trace or with the group that it is in, and has no verdict. -/
def Dangling (later : List Record) : Prop :=
  ∀ o, rowEnd? later = some o → o = .blockEnd

section append

variable (later more : List Record)

@[simp] theorem rowEnd?_nil : rowEnd? [] = none := rfl

@[simp] theorem followers_nil : followers [] = 0 := rfl

@[simp] theorem rowEnd?_cons (r : Record) :
    rowEnd? (r :: later) = if r.endsRow then some r.operation else rowEnd? later := by
  by_cases ends : r.endsRow <;> simp [rowEnd?, ends]

@[simp] theorem followers_cons (r : Record) : followers (r :: later) =
    if r.endsRow then 0 else followers later + if r.issues then 1 else 0 := by
  by_cases ends : r.endsRow <;> simp [followers, ends, List.countP_cons]

@[simp] theorem rowEnd?_append : rowEnd? (later ++ more) = (rowEnd? later).or (rowEnd? more) := by
  simp only [rowEnd?, List.find?_append, Option.map_or]

/-- What comes after the end of a row does not follow in it. -/
@[simp] theorem followers_append : followers (later ++ more) =
    followers later + if rowEnd? later = none then followers more else 0 := by
  induction later with
  | nil => simp
  | cons r later ih =>
      by_cases ends : r.endsRow
      · simp [ends]
      · simp only [List.cons_append, followers_cons, rowEnd?_cons, ends, Bool.false_eq_true,
          if_false, ih]
        omega

/-- A row that goes on dangles from a record on that ends it if that is the end of a group. -/
theorem dangling_append {x : Record} (ends : x.endsRow = true) :
    Dangling (later ++ x :: more) ↔
      Dangling later ∧ (rowEnd? later = none → x.operation = .blockEnd) := by
  unfold Dangling
  rw [rowEnd?_append, rowEnd?_cons, if_pos ends]
  cases rowEnd? later <;> simp

theorem rowEnd?_map_lasting : rowEnd? (later.map Record.lasting) = rowEnd? later := by
  simp only [rowEnd?, List.find?_map, Option.map_map]
  rfl

theorem followers_map_lasting : followers (later.map Record.lasting) = followers later := by
  simp only [followers, List.takeWhile_map, List.countP_map]
  rfl

theorem dangling_map_lasting : Dangling (later.map Record.lasting) ↔ Dangling later := by
  simp only [Dangling, rowEnd?_map_lasting]

end append

namespace Clause

variable {c c' : Clause} {later : List Record} {j : Nat} {r r' x : Record}

/-! ## The place of an operator in its row -/

/-- A clause treats an operator as its row demands: it waits if it is the last of a row that goes
    on, it is deferred if it is the last but one, and it is open as long as there is no verdict for
    it. -/
structure InRow (c : Clause) (later : List Record) (j : Nat) (r : Record) : Prop where
  isOpen : r.status = .notImplemented ↔ Dangling later ∨ 2 ≤ followers later
  waits : (∃ op, c.waiting? = some (j, op)) ↔ rowEnd? later = none ∧ followers later = 0
  deferred : c.deferred = some j ↔ rowEnd? later = none ∧ followers later = 1

namespace InRow

theorem new {op : Operator} (waits : c.waiting? = some (j, op)) (deferred : c.deferred ≠ some j)
    (isOpen : r.status = .notImplemented) : InRow c [] j r where
  isOpen := by simp [isOpen, Dangling]
  waits := by simp [waits]
  deferred := by simp [deferred]

theorem same (row : InRow c later j r) (waits : c'.waiting? = c.waiting?)
    (deferred : c'.deferred = c.deferred) : InRow c' later j r := by
  obtain ⟨isOpen, waits', deferred'⟩ := row
  exact ⟨isOpen, waits ▸ waits', deferred ▸ deferred'⟩

/-- A record that neither issues an operator nor ends a row leaves the row as it is. -/
theorem pass (row : InRow c later j r) (issues : x.issues = false) (ends : x.endsRow = false)
    (waits : c'.waiting? = c.waiting?) (deferred : c'.deferred = c.deferred) :
    InRow c' (later ++ [x]) j r := by
  have still : rowEnd? (later ++ [x]) = rowEnd? later := by simp [ends]
  have same : followers (later ++ [x]) = followers later := by simp [ends, issues]
  obtain ⟨isOpen, waits', deferred'⟩ := row
  exact ⟨by rw [isOpen, Dangling, Dangling, still, same], by rw [waits, waits', still, same],
    by rw [deferred, deferred', still, same]⟩

/-- An operator that is issued comes after the others of a row that goes on. -/
theorem issue (row : InRow c later j r) (issues : x.issues = true) (ends : x.endsRow = false)
    {n : Nat} {op : Operator} (before : j < n) (waits : c'.waiting? = some (n, op))
    (deferred : c'.deferred = c.waiting?.map (·.1)) : InRow c' (later ++ [x]) j r := by
  have still : rowEnd? (later ++ [x]) = rowEnd? later := by simp [ends]
  have more : followers (later ++ [x]) =
      followers later + if rowEnd? later = none then 1 else 0 := by simp [ends, issues]
  have pushed : c'.deferred = some j ↔ ∃ op, c.waiting? = some (j, op) := by
    rw [deferred]
    cases c.waiting? with
    | none => simp
    | some waiting => simp [Prod.ext_iff]
  obtain ⟨isOpen, waits', deferred'⟩ := row
  refine ⟨?_, ?_, ?_⟩
  · rw [isOpen, Dangling, Dangling, still, more]
    by_cases goesOn : rowEnd? later = none
    · simp [goesOn]
    · simp [goesOn]
  · rw [still, more, waits]
    have apart : n ≠ j := Nat.ne_of_gt before
    by_cases goesOn : rowEnd? later = none
    · simp [goesOn, apart]
    · simp [goesOn, apart]
  · rw [pushed, waits', still, more]
    by_cases goesOn : rowEnd? later = none
    · simp [goesOn]
    · simp [goesOn]

/-- With a record that ends rows no operator before it has a slot any more. -/
theorem ended {rest : List Record} (ends : x.endsRow = true) (waits : c.waiting? = none)
    (deferred : c.deferred = none) (isOpen : r.status = .notImplemented ↔
      Dangling later ∧ (rowEnd? later = none → x.operation = .blockEnd) ∨ 2 ≤ followers later) :
    InRow c (later ++ x :: rest) j r := by
  have same : followers (later ++ x :: rest) = followers later := by simp [ends]
  have finished : rowEnd? (later ++ x :: rest) ≠ none := by simp [ends]
  exact ⟨by rw [isOpen, dangling_append _ _ ends, same],
    iff_of_false (by simp [waits]) fun goesOn => finished goesOn.1,
    iff_of_false (by simp [deferred]) fun goesOn => finished goesOn.1⟩

/-- A verdict is that of the last two operators of a row that goes on. -/
theorem verdict {rest : List Record} (row : InRow c later j r) (ends : x.endsRow = true)
    (apart : x.operation ≠ .blockEnd) (waits : c'.waiting? = none) (deferred : c'.deferred = none)
    (filled : r'.status = .notImplemented ↔ r.status = .notImplemented ∧
      (¬ ∃ op, c.waiting? = some (j, op)) ∧ c.deferred ≠ some j) :
    InRow c' (later ++ x :: rest) j r' := by
  refine .ended ends waits deferred ?_
  rw [filled, row.isOpen, row.waits, Ne, row.deferred]
  by_cases goesOn : rowEnd? later = none
  · have others : 2 ≤ followers later ↔ followers later ≠ 0 ∧ followers later ≠ 1 := by omega
    have dangles : Dangling later := by simp [Dangling, goesOn]
    simp [goesOn, apart, dangles, others]
  · simp [goesOn]

/-- What waits in a group when it is closed is left without a verdict. -/
theorem leave (row : InRow c later j r) (ends : x.endsRow = true)
    (closes : x.operation = .blockEnd) (waits : c'.waiting? = none)
    (deferred : c'.deferred = none) : InRow c' (later ++ [x]) j r := by
  refine .ended ends waits deferred ?_
  simp only [row.isOpen, closes, implies_true, and_true]

end InRow

/-! ## What a verdict fills in -/

/-- A verdict is filled in at one place. -/
theorem settleAt_found {records : List Record} {i : Nat} {op : Operator} {v : Status}
    (found : (settleAt records i op v).1[j]? = some r') :
    ∃ r, records[j]? = some r ∧ r'.unjudged = r.unjudged ∧
      (r'.status = .notImplemented ↔ r.status = .notImplemented ∧ i ≠ j) := by
  simp only [settleAt, List.getElem?_modify, Option.map_eq_map, Option.map_eq_some_iff] at found
  obtain ⟨r, at_j, same⟩ := found
  refine ⟨r, at_j, ?_⟩
  by_cases here : i = j
  · rw [if_pos here] at same
    subst same
    exact ⟨rfl, iff_of_false (combine_decided _ _ _).2 fun isOpen => isOpen.2 here⟩
  · rw [if_neg here] at same
    subst same
    exact ⟨rfl, (and_iff_left here).symm⟩

/-- Of the operators that are still open only those that the slots name are resolved. -/
theorem Slotted.settled_found (slotted : c.Slotted) {v : Status}
    (found : (c.settled v).1[j]? = some r') :
    ∃ r, c.entries[j]? = some r ∧ r'.unjudged = r.unjudged ∧
      (r'.status = .notImplemented ↔ r.status = .notImplemented ∧
        (¬ ∃ op, c.waiting? = some (j, op)) ∧ c.deferred ≠ some j) := by
  cases waits : c.waiting? with
  | none =>
      simp only [settled, waits] at found
      exact ⟨r', found, rfl, by simp [slotted.deferred_of_idle waits]⟩
  | some waiting =>
      obtain ⟨a, op⟩ := waiting
      simp only [settled, waits] at found
      cases pushed : c.deferred with
      | none =>
          have empty : c.deferred? = none := by simp [deferred?, pushed]
          simp only [empty, settleSlot] at found
          obtain ⟨r, at_j, same, isOpen⟩ := settleAt_found found
          exact ⟨r, at_j, same, by simp [isOpen]⟩
      | some d =>
          obtain ⟨s, op', at_d, _, operator⟩ := slotted.slots d pushed
          have named := c.deferred?_eq_some.mpr ⟨pushed, s, at_d, operator⟩
          simp only [named, settleSlot] at found
          obtain ⟨_, at_j, same, isOpen⟩ := settleAt_found found
          obtain ⟨r, at_j, same', isOpen'⟩ := settleAt_found at_j
          exact ⟨r, at_j, same.trans same', by simp [isOpen, isOpen', and_assoc]⟩

/-- An operator that had its place in a row has it when the next verdict is filled in. -/
theorem Slotted.row_settled (slotted : c.Slotted)
    (row : ∀ r, c.entries[j]? = some r → r.issues = true → InRow c later j r)
    (ends : x.endsRow = true) (apart : x.operation ≠ .blockEnd) (waits : c'.waiting? = none)
    (deferred : c'.deferred = none) {v : Status} (found : (c.settled v).1[j]? = some r')
    (issues : r'.issues = true) {rest : List Record} : InRow c' (later ++ x :: rest) j r' := by
  obtain ⟨r, at_j, same, filled⟩ := slotted.settled_found found
  have issues' : r.issues = true := (congrArg Record.issues same).symm.trans issues
  exact (row r at_j issues').verdict ends apart waits deferred filled

/-! ## All operators of a chain -/

/-- What a clause has recorded since the record at an index. -/
def since (c : Clause) (j : Nat) : List Record := c.lasting.drop (j + 1)

theorem since_of_lasting {more : List Record} (lasting : c'.lasting = c.lasting ++ more)
    (before : j < c.entries.length) : c'.since j = c.since j ++ more := by
  have inside : j + 1 ≤ c.lasting.length := by simpa using Nat.succ_le_of_lt before
  rw [since, lasting, List.drop_append_of_le_length inside, since]

theorem Appends.since (appends : Appends c x c') (before : j < c.entries.length) :
    c'.since j = c.since j ++ [x.entered c.result.trace.length] :=
  since_of_lasting appends.lasting before

/-- From an index on, all operators of a chain are treated as their rows demand. -/
structure InOrder (base : Nat) (c : Clause) : Prop where
  slotted : c.Slotted
  rows : ∀ j r, base ≤ j → c.entries[j]? = some r → r.issues = true → InRow c (c.since j) j r

/-- The last record can be left out of account if it issues no operator. -/
theorem inOrder_of_last {base : Nat} {es : List Record} (slotted : c.Slotted)
    (entries : c.entries = es ++ [x]) (issues : x.issues = false)
    (rows : ∀ j r, base ≤ j → es[j]? = some r → r.issues = true → InRow c (c.since j) j r) :
    InOrder base c where
  slotted := slotted
  rows j r above at_j operator := by
    rw [entries, List.getElem?_append] at at_j
    split at at_j
    · exact rows j r above at_j operator
    · cases List.mem_singleton.mp (List.mem_of_getElem? at_j)
      cases issues.symm.trans operator

/-- After a verdict no slot names an operator. -/
theorem inOrder_verdict {base : Nat} (slotted : c.Slotted)
    (judged : x.operation.operator? = none) (v : Status)
    (verdict : c' = ((c.add x).resolve c.result.trace.length v).1)
    (rows : c'.waiting? = none → c'.deferred = none → ∀ j r, base ≤ j →
      (c.settled v).1[j]? = some r → r.issues = true → InRow c' (c'.since j) j r) :
    InOrder base c' := by
  obtain ⟨_, _, _, entries⟩ := c.resolve_add judged v
  obtain ⟨waits, deferred, slotted'⟩ := slotted.verdict judged v
  rw [← verdict] at entries waits deferred slotted'
  refine inOrder_of_last slotted' entries ?_ (rows waits deferred)
  simp [Record.issues, Operation.isOperator, judged]

namespace InOrder

variable {base : Nat}

/-- A record that neither issues an operator nor ends a row leaves all in order. -/
theorem pass (inOrder : InOrder base c) {y : Record} (entries : c'.entries = c.entries ++ [y])
    (appends : Appends c x c') (slots : c'.waiting? = c.waiting? ∧ c'.Slotted)
    (deferred : c'.deferred = c.deferred) (issues : y.issues = false ∧ x.issues = false)
    (ends : x.endsRow = false) : InOrder base c' := by
  refine inOrder_of_last slots.2 entries issues.1 fun j r above at_j operator => ?_
  rw [appends.since (List.getElem?_eq_some_iff.mp at_j).1]
  exact (inOrder.rows j r above at_j operator).pass issues.2 ends slots.1 deferred

theorem issued (inOrder : InOrder base c) {op : Operator} {step : Clause × List String}
    (issued : c.addOperator op = .ok step) : InOrder base step.1 := by
  obtain ⟨waits, deferred, slotted⟩ := inOrder.slotted.issued issued
  obtain ⟨left, entries⟩ := c.entries_issued issued
  obtain ⟨left', appends⟩ := c.appends_issued issued
  refine ⟨slotted, fun j r above at_j operator => ?_⟩
  rw [entries, List.getElem?_append] at at_j
  split at at_j
  · rename_i before
    rw [appends.since before]
    exact (inOrder.rows j r above at_j operator).issue rfl rfl before waits deferred
  · rename_i last
    have here : j = c.entries.length := by
      have := (List.getElem?_eq_some_iff.mp at_j).1
      simp only [List.length_singleton] at this
      omega
    subst here
    have none : step.1.since c.entries.length = [] := by
      rw [since, appends.lasting]
      simp
    rw [none]
    refine .new waits (fun named => ?_) ?_
    · exact absurd (slotted.deferred_lt named waits) (Nat.lt_irrefl _)
    · cases List.mem_singleton.mp (List.mem_of_getElem? at_j)
      rfl

theorem judge (inOrder : InOrder base c) (m : Matcher) (captured : Option Snapshot)
    (matched : Bool) : InOrder base (c.judge m captured matched).1 := by
  refine inOrder_verdict inOrder.slotted (by cases m <;> rfl) _ rfl ?_
  intro waits deferred j r above found issues
  have before : j < c.entries.length := by
    simpa using (List.getElem?_eq_some_iff.mp found).1
  rw [(c.appends_judge m captured matched).since before]
  exact inOrder.slotted.row_settled (fun r => inOrder.rows j r above) rfl (by cases m <;> nofun)
    waits deferred found issues

/-- The verdict of a group is that of the operators around it. -/
theorem closeGroup {outer inner : Clause} (inOrder : InOrder base outer)
    (inside : InOrder outer.entries.length inner) (evolved : Evolved outer.openGroup inner) :
    InOrder base (Clause.closeGroup outer { inner with depth := inner.depth - 1 }).1 := by
  obtain ⟨kept, waiting, resumed⟩ :=
    inOrder.slotted.resume (evolved _ lasts_evolution) (inner.depth - 1)
  refine inOrder_verdict resumed rfl _ rfl ?_
  intro waits deferred j r above found issues
  rcases Nat.lt_or_ge j outer.entries.length with before | within
  · -- An operator from before the group: its row has ended as the group was opened.
    obtain ⟨more, extended⟩ := evolved _ extends_evolution
    have lasting := (appends_closeGroup outer inner).lasting
    rw [← extended, outer.appends_openGroup.lasting, List.append_assoc,
      List.append_assoc] at lasting
    have apart : Operation.blockStart ≠ .blockEnd := nofun
    rw [since_of_lasting lasting before]
    refine resumed.row_settled (fun r at_j issues => ?_) rfl apart waits deferred found issues
    exact (inOrder.rows j r above ((kept j before).symm.trans at_j) issues).same waiting rfl
  · -- An operator of the group: nothing of the group is filled in any more.
    rw [getElem?_settled] at found
    · have before : j < inner.entries.length := (List.getElem?_eq_some_iff.mp found).1
      rw [(appends_closeGroup outer inner).since before]
      exact (inside.rows j r within found issues).leave rfl rfl waits deferred
    · intro a op named
      rw [waiting] at named
      have := inOrder.slotted.active a (outer.waiting?_eq_some.mp named).1
      omega
    · intro d named
      obtain ⟨a, pending, before⟩ := inOrder.slotted.waits d named
      have := inOrder.slotted.active a (outer.waiting?_eq_some.mp pending).1
      omega

/-- In a group that begins no operator has been issued. -/
theorem openGroup (c : Clause) : InOrder c.entries.length c.openGroup := by
  refine inOrder_of_last c.slotted_openGroup c.entries_openGroup rfl fun j r above found _ => ?_
  exact absurd (List.getElem?_eq_some_iff.mp found).1 (Nat.not_lt.mpr above)

/-- In a chain that is in order an operator is still open if it is in no row that has a verdict, or
    if two more follow it in its row. -/
theorem isOpen_iff (inOrder : InOrder 0 c) (at_j : c.result.trace[j]? = some r)
    (issues : r.issues = true) : r.status = .notImplemented ↔
      Dangling (c.result.trace.drop (j + 1)) ∨ 2 ≤ followers (c.result.trace.drop (j + 1)) := by
  have found : c.entries[j]? = some r.unlinked := by rw [getElem?_entries, at_j, Option.map_some]
  have mapped : c.since j = (c.result.trace.drop (j + 1)).map Record.lasting := by
    rw [since, lasting, List.map_drop]
  have isOpen := (inOrder.rows j r.unlinked (Nat.zero_le j) found issues).isOpen
  rwa [mapped, dangling_map_lasting, followers_map_lasting] at isOpen

end InOrder

theorem inOrder_new (o : Options) : InOrder 0 { options := o } where
  slotted := slotted_new o
  rows j r _ at_j := by simp [entries] at at_j

/-- What sets the subject ends no row, whatever call does it. -/
theorem endsRow_setter (call : Call) (captured : Option Snapshot) :
    Record.endsRow { Record.setter call.operation with captured } = false := by
  cases call with
  | check m => cases m <;> rfl
  | that | pick | err | logic op => rfl

theorem inOrder_closing :
    Closing fun c c' : Clause => ∀ base, InOrder base c → InOrder base c' where
  refl _ _ := id
  trans first second base := second base ∘ first base
  issue issued _ inOrder := inOrder.issued issued
  setSubject c call captured v _ inOrder :=
    have slots := inOrder.slotted.append (c.entries_setSubject call.operation captured v)
      (by simp) (by simp)
    inOrder.pass (c.entries_setSubject call.operation captured v)
      (c.appends_setSubject _ captured v) slots (by simp) ⟨rfl, rfl⟩ (endsRow_setter call captured)
  restoreTo _ _ _ inOrder :=
    ⟨⟨inOrder.slotted.slots, inOrder.slotted.active, inOrder.slotted.waits⟩,
      fun j r above at_j issues => (inOrder.rows j r above at_j issues).same rfl rfl⟩
  judge _ m captured matched _ inOrder := inOrder.judge m captured matched
  abort c call role text captured _ inOrder :=
    have slots := inOrder.slotted.append (c.entries_abort call.operation role text captured) rfl rfl
    inOrder.pass (c.entries_abort call.operation role text captured)
      (c.appends_abort _ role text captured) slots rfl
      (by simp [Record.issues, Record.exception, Record.unlinked])
      (by simp [Record.endsRow, Record.exception])
  closeGroup inside evolved _ inOrder := inOrder.closeGroup (inside _ (.openGroup _)) evolved

end Clause

open Clause

/-- What is to the left of an operator and what is deferred are named in two slots.  Wherever code
    comes by, an operator is deferred only if the other slot names a `not` that is still open, and
    the operator is open as well and comes before it.  A matcher or a group that returns leaves
    nothing deferred, and leaves to the left of the next operator a record that is resolved.  As
    long as groups are closed, an operator is still open at the end of a run exactly if its row has
    no verdict, or if two more operators have followed it in its row. -/
theorem operator_slots_in_order {code : Code} {w : World} {i : Nat} {o : Options}
    (fresh : w.clause i = { options := o }) :
    (∀ w', code.Visits w w' → let c := w'.clause i
      ∀ d, c.deferred = some d → ∃ a r s op, c.active = some a ∧ d < a ∧
        c.result.trace[a]? = some r ∧ r.operation = .logic .not ∧ r.status = .notImplemented ∧
        c.result.trace[d]? = some s ∧ s.operation = .logic op ∧ s.status = .notImplemented) ∧
    (∀ call block next rescue w₁ w₂, code.Reaches w (.call i call .code block next rescue) w₁ →
      call.judges = true → w₁.perform i call (.code fun v => (block v).run) = (w₂, .ok ()) →
      (w₂.clause i).Concluded) ∧
    (code.GroupsReturn w i → let t := ((code.run w).1.clause i).result.trace
      ∀ j r, t[j]? = some r → r.issues = true → (r.status = .notImplemented ↔
        Dangling (t.drop (j + 1)) ∨ 2 ≤ followers (t.drop (j + 1)))) := by
  refine ⟨?_, ?_, ?_⟩
  · intro w' visits c d pushed
    exact (Code.slotted_visits fresh visits).named pushed
  · intro call block next rescue w₁ w₂ reached judges called
    exact World.perform_concluded (Code.slotted_visits fresh (reached.visits .here)) judges called
  · intro returns t j r at_j issues
    have inOrder : ((code.run w).1.clause i).InOrder 0 :=
      Code.closes_run inOrder_closing returns 0 (fresh ▸ inOrder_new o)
    exact inOrder.isOpen_iff at_j issues

/-- An `and` never gets a verdict that is followed by a `not`, and by another that has a group. -/
theorem operator_slots_in_order_dropped :
    let one : Value → Code := fun _ => .give (.int 1)
    let block : Value → Code := fun _ => Code.calls 0 [(.logic .not, .absent, one),
      (.check .is, .code, one)]
    let code := Code.calls 0 [(.that, .code, one), (.check .is, .code, one),
      (.logic .and, .absent, one), (.logic .not, .absent, one), (.logic .not, .code, block)]
    let subject := (World.start.perform 0 .that (.code fun v => (one v).run)).1
    let passed := (subject.perform 0 (.check .is) (.code fun v => (one v).run)).1
    let joined := (passed.perform 0 (.logic .and) .absent).1
    let w₁ := (joined.perform 0 (.logic .not) .absent).1
    let w₂ := (w₁.perform 0 (.logic .not) (.code fun v => (block v).run)).1
    let t := ((code.run World.start).1.clause 0).result.trace
    World.start.clause 0 = { options := .default } ∧
      code.Reaches World.start (.call 0 (.logic .not) .code block (.give .null) .fail) w₁ ∧
      ((w₁.clause 0).deferred = some 2 ∧ ∃ a, (w₁.clause 0).active = some a ∧ 2 < a) ∧
      w₁.perform 0 (.logic .not) (.code fun v => (block v).run) = (w₂, .ok ()) ∧
      (w₂.clause 0).Concluded ∧ code.GroupsReturn World.start 0 ∧
      t.map (·.operation) = [.that, .is, .logic .and, .logic .not, .logic .not, .blockStart,
        .logic .not, .is, .blockEnd] ∧
      ∃ r, t[2]? = some r ∧ r.issues = true ∧ followers (t.drop 3) = 2 ∧
        r.status = .notImplemented := by
  intro one block code subject passed joined w₁ w₂ t
  have fresh : World.start.clause 0 = { options := .default } := rfl
  have reached :
      code.Reaches World.start (.call 0 (.logic .not) .code block (.give .null) .fail) w₁ :=
    .returned (Outcome.returned rfl) (.returned (Outcome.returned (by decide +kernel))
      (.returned (Outcome.returned (by decide +kernel))
        (.returned (Outcome.returned (by decide +kernel)) .here)))
  have pushed : (w₁.clause 0).deferred = some 2 := by decide +kernel
  have called : w₁.perform 0 (.logic .not) (.code fun v => (block v).run) = (w₂, .ok ()) :=
    Outcome.returned (by decide +kernel)
  have returns : code.GroupsReturn World.start 0 :=
    Code.GroupsReturn.of_history (by decide +kernel)
  obtain ⟨named, concluded, open_iff⟩ := @operator_slots_in_order code _ 0 _ fresh
  obtain ⟨a, _, _, _, active, before, _⟩ := named w₁ (reached.visits .here) 2 pushed
  have followed : followers (t.drop 3) = 2 := by decide +kernel
  have issued : t[2]?.any Record.issues = true := by decide +kernel
  obtain ⟨r, at_2, issues⟩ := (Option.any_eq_true _ _).mp issued
  have isOpen := (open_iff returns 2 r at_2 issues).mpr (.inr (Nat.le_of_eq followed.symm))
  exact ⟨fresh, reached, ⟨pushed, a, active, before⟩, called,
    concluded _ block _ _ w₁ w₂ reached rfl called, returns, by decide +kernel, r, at_2, issues,
    followed, isOpen⟩

end Assay
