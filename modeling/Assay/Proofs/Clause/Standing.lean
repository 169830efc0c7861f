import Assay.Proofs.Clause.Evolution
import Assay.Proofs.Clause.Verdict
import Mathlib.Data.List.Induction

/-! # What a trace amounts to

The status of a clause is written by five kinds of steps, in whatever order code takes them.  It
can always be read off the trace: a record that sets the subject only turns an open status into a
pass, the start of a group is a pass, and every other record counts with its own status.

Two things follow.  An operator that waits keeps the status open until something sets the subject,
and an exception stays the status until a matcher, an operator or a group is recorded.
-/

namespace Assay

/-- The status of a chain after a record, given the status before it. -/
def Record.after (s : Status) (r : Record) : Status :=
  match r.status with
  | .set => if s = .notImplemented then .pass else s
  | .notImplemented => if r.operation = .blockStart then .pass else .notImplemented
  | own => own

/-- What a trace amounts to. -/
def standing (records : List Record) : Status :=
  records.foldl Record.after .notImplemented

@[simp] theorem standing_append (records : List Record) (r : Record) :
    standing (records ++ [r]) = r.after (standing records) := by
  simp [standing]

theorem after_of_decided {r : Record} (decided : r.status ≠ .set ∧ r.status ≠ .notImplemented)
    (s : Status) : r.after s = r.status := by
  unfold Record.after
  split <;> simp_all

theorem after_ne_set {s : Status} (open' : s ≠ .set) (r : Record) : r.after s ≠ .set := by
  unfold Record.after
  split
  · split <;> simp_all
  · split <;> simp
  · assumption

theorem standing_ne_set (records : List Record) : standing records ≠ .set := by
  have folded (later : List Record) {s : Status} (ok : s ≠ .set) :
      later.foldl Record.after s ≠ .set := by
    induction later generalizing s with
    | nil => exact ok
    | cons r later ih => exact ih (after_ne_set ok r)
  exact folded records (by decide)

/-- The trace has the record of an exception with nothing but setters after it. -/
def EndsAborted (records : List Record) : Prop :=
  ∃ earlier r later, records = earlier ++ r :: later ∧ r.status = .exception ∧
    ∀ s ∈ later, s.status = .set

theorem after_eq_exception {r : Record} {s : Status} : r.after s = .exception ↔
    r.status = .exception ∨ r.status = .set ∧ s = .exception := by
  unfold Record.after
  split <;> rename_i own
  · cases s <;> simp [own]
  · simp only [own]
    split <;> simp
  · simp_all

theorem endsAborted_append {records : List Record} {r : Record} : EndsAborted (records ++ [r]) ↔
    r.status = .exception ∨ r.status = .set ∧ EndsAborted records := by
  constructor
  · rintro ⟨earlier, x, later, split, raised, setters⟩
    rcases later.eq_nil_or_concat with none | ⟨before, last, some⟩
    · subst none
      obtain ⟨_, same⟩ := List.append_inj' split rfl
      simp only [List.cons.injEq, and_true] at same
      exact .inl (same ▸ raised)
    · rw [List.concat_eq_append] at some
      subst some
      rw [← List.cons_append, ← List.append_assoc] at split
      obtain ⟨rest, same⟩ := List.append_inj' split rfl
      simp only [List.cons.injEq, and_true] at same
      exact .inr ⟨same ▸ setters last (by simp), earlier, x, before, rest, raised,
        fun s member => setters s (by simp [member])⟩
  · rintro (raised | ⟨own, earlier, x, later, split, raised, setters⟩)
    · exact ⟨records, r, [], rfl, raised, by simp⟩
    · refine ⟨earlier, x, later ++ [r], by simp [split], raised, ?_⟩
      simpa [or_imp, forall_and, own] using setters

/-- A trace amounts to an exception exactly if no other verdict or operator came after it. -/
theorem standing_eq_exception (records : List Record) :
    standing records = .exception ↔ EndsAborted records := by
  induction records using List.reverseRecOn with
  | nil =>
      constructor
      · intro aborted
        cases aborted
      · rintro ⟨_, _, _, split, _⟩
        simp at split
  | append_singleton records r ih =>
      rw [standing_append, after_eq_exception, endsAborted_append, ih]

/-- A run of setters only turns an open status into a pass. -/
theorem foldl_after_setters {later : List Record} (setters : ∀ r ∈ later, r.status = .set)
    (s : Status) : later.foldl Record.after s =
      if later = [] then s else if s = .notImplemented then .pass else s := by
  induction later generalizing s with
  | nil => rfl
  | cons r later ih =>
      have own : r.status = .set := setters r (by simp)
      rw [List.foldl_cons, ih fun x member => setters x (by simp [member])]
      cases s <;> simp [Record.after, own]

namespace Clause

/-! ## Every step keeps the status in line with the trace -/

/-- The status is what the trace amounts to, and after an operator that waits there are only
    records that set the subject and records of exceptions. -/
structure InLine (c : Clause) : Prop where
  status : c.result.status = standing c.entries
  waiting : ∀ {a op}, c.waiting? = some (a, op) → ∀ r ∈ c.entries.drop (a + 1),
    r.status = .set ∨ r.status = .exception

namespace InLine

/-- Links do not count. -/
theorem status_trace {c : Clause} (line : c.InLine) :
    c.result.status = standing c.result.trace := by
  rw [line.status, standing, entries, List.foldl_map]
  rfl

theorem fresh (o : Options) : InLine { options := o } where
  status := rfl
  waiting := by
    intro a op waits
    simp [waiting?] at waits

/-- A clause whose last record gives the verdict is in line whatever came before. -/
theorem ofVerdict {c : Clause} {es : List Record} {r : Record} (entries : c.entries = es ++ [r])
    (status : c.result.status = r.status) (judged : r.operation.operator? = none)
    (decided : r.status ≠ .set ∧ r.status ≠ .notImplemented)
    (active : c.active = some es.length) : c.InLine where
  status := by rw [status, entries, standing_append, after_of_decided decided]
  waiting := by
    intro a op waits
    obtain ⟨at_a, found, here, _, operator⟩ := c.waiting?_eq_some.mp waits
    have last : a = es.length := by simpa [active] using at_a.symm
    subst last
    simp only [entries, List.getElem?_concat_length, Option.some.injEq] at here
    simp [← here, judged] at operator

end InLine

theorem combine_decided (left : Option Status) (op : Operator) (v : Status) :
    op.combine left v ≠ .set ∧ op.combine left v ≠ .notImplemented := by
  cases op <;> simp only [Operator.combine, Status.ofMatch] <;> constructor <;> split <;> simp

/-- What a verdict comes to is the verdict itself, or that of an operator. -/
theorem settled_cases (c : Clause) (v : Status) :
    (c.settled v).2 = v ∨ (c.settled v).2 ≠ .set ∧ (c.settled v).2 ≠ .notImplemented := by
  unfold settled
  split
  · exact .inl rfl
  · unfold settleSlot
    split
    · exact .inr (combine_decided _ _ _)
    · exact .inr (combine_decided _ _ _)

theorem settled_decided (c : Clause) {v : Status} (decided : v ≠ .set ∧ v ≠ .notImplemented) :
    (c.settled v).2 ≠ .set ∧ (c.settled v).2 ≠ .notImplemented := by
  rcases c.settled_cases v with same | operator
  · rwa [same]
  · exact operator

theorem settled_resolved (c : Clause) {v : Status} (resolved : v ≠ .notImplemented) :
    (c.settled v).2 ≠ .notImplemented := by
  rcases c.settled_cases v with same | operator
  · rwa [same]
  · exact operator.2

/-- Resolving a verdict puts a clause in line. -/
theorem inLine_resolve (c : Clause) {r : Record} {v : Status}
    (judged : r.operation.operator? = none) (decided : v ≠ .set ∧ v ≠ .notImplemented) :
    ((c.add r).resolve c.result.trace.length v).1.InLine := by
  obtain ⟨status, active, _, entries⟩ := c.resolve_add judged v
  refine .ofVerdict entries status judged (c.settled_decided decided) ?_
  rw [active, length_settled]

theorem inLine_judge (c : Clause) (m : Matcher) (captured : Option Snapshot) (matched : Bool) :
    (c.judge m captured matched).1.InLine := by
  refine c.inLine_resolve (by cases m <;> rfl) ?_
  cases matched <;> simp [Status.ofMatch]

theorem inLine_closeGroup {outer inner : Clause} (line : inner.InLine)
    (resolved : inner.result.status ≠ .notImplemented) : (closeGroup outer inner).1.InLine := by
  refine (resume outer inner).inLine_resolve rfl ⟨?_, resolved⟩
  rw [line.status]
  exact standing_ne_set _

theorem inLine_issue (c : Clause) (op : Operator) (left : Status) : (c.issue op left).InLine where
  status := by
    rw [entries_issue, standing_append]
    rfl
  waiting := by
    intro a op' waits
    obtain ⟨active, _⟩ := (c.issue op left).waiting?_eq_some.mp waits
    have last : c.result.trace.length = a := by simpa [issue] using active
    rw [entries_issue, List.drop_eq_nil_of_le (by simp; omega)]
    simp

theorem inLine_openGroup (c : Clause) : c.openGroup.InLine where
  status := by
    rw [entries_openGroup, standing_append]
    rfl
  waiting := by
    intro a op waits
    simp [waiting?, openGroup] at waits

/-- A record that is added after an operator that waits keeps a clause in line if it sets the
    subject or tells of an exception. -/
theorem InLine.append {c c' : Clause} {r : Record} (line : c.InLine)
    (entries : c'.entries = c.entries ++ [r]) (status : c'.result.status = r.after c.result.status)
    (waits : c'.waiting? = c.waiting?) (kind : r.status = .set ∨ r.status = .exception) :
    c'.InLine where
  status := by rw [status, entries, standing_append, line.status]
  waiting := by
    intro a op pending x member
    rw [waits] at pending
    obtain ⟨_, found, at_a, _, _⟩ := c.waiting?_eq_some.mp pending
    have before : a < c.entries.length := (List.getElem?_eq_some_iff.mp at_a).1
    rw [entries, List.drop_append_of_le_length before, List.mem_append,
      List.mem_singleton] at member
    rcases member with earlier | new
    · exact line.waiting pending x earlier
    · exact new ▸ kind

theorem inLine_setSubject {c : Clause} (line : c.InLine) (o : Operation)
    (captured : Option Snapshot) (v : Value) : (c.setSubject o captured v).InLine :=
  line.append (c.entries_setSubject o captured v) (c.setSubject_status o captured v)
    (c.waiting?_setSubject o captured v) (.inl rfl)

theorem inLine_abort {c : Clause} (line : c.InLine) (o : Operation) (role : Role) (text : String)
    (captured : Option Snapshot) : (c.abort o role text captured).InLine :=
  line.append (c.entries_abort o role text captured) rfl
    (c.waiting?_add (r := { Record.exception o role text with captured })
      (.inr (by simp [Record.exception]))) (.inr rfl)

/-- Every step keeps the status in line with the trace. -/
theorem inLine_evolution : Evolution fun c c' : Clause => c.InLine → c'.InLine where
  refl _ line := line
  trans first second line := second (first line)
  issue := by
    intro c op step issued _
    rcases c.addOperator_cases issued with ⟨_, _, same, _⟩ | ⟨_, _, _, _, _, same⟩
    · exact same ▸ inLine_issue _ _ _
    · exact same ▸ inLine_issue _ _ _
  setSubject c _ captured v line := inLine_setSubject line _ captured v
  restoreTo c v line := ⟨line.status, line.waiting⟩
  judge c m captured matched _ := c.inLine_judge m captured matched
  abort c call role text captured line := inLine_abort line _ role text captured
  leaveGroup inside line :=
    have inner := inside (inLine_openGroup _)
    ⟨inner.status, inner.waiting⟩
  closeGroup inside resolved line :=
    have inner := inside (inLine_openGroup _)
    inLine_closeGroup ⟨inner.status, inner.waiting⟩ resolved

/-- Every state of a clause that code comes by is in line with its trace. -/
theorem inLine_visits {code : Code} {w w' : World} {i : Nat} (visits : code.Visits w w')
    (line : (w.clause i).InLine) : (w'.clause i).InLine :=
  Code.evolves_visits inLine_evolution (fun c _ => inLine_openGroup c) i visits line

/-! ## Operators that wait -/

/-- No call on the clause has been aborted. -/
def Calm (c : Clause) : Prop := ∀ r ∈ c.result.trace, r.status ≠ .exception

/-- What a clause amounts to while an operator waits. -/
theorem InLine.status_of_waiting {c : Clause} (line : c.InLine) (calm : c.Calm) {a : Nat}
    {op : Operator} (waits : c.waiting? = some (a, op)) : c.result.status =
      if a + 1 = c.result.trace.length then .notImplemented else .pass := by
  obtain ⟨_, found, at_a, isOpen, operator⟩ := c.waiting?_eq_some.mp waits
  obtain ⟨before, here⟩ := List.getElem?_eq_some_iff.mp at_a
  have setters : ∀ r ∈ c.entries.drop (a + 1), r.status = .set := by
    intro r member
    refine (line.waiting waits r member).resolve_right ?_
    obtain ⟨x, inside, same⟩ := List.mem_map.mp (List.mem_of_mem_drop member)
    rw [← same]
    exact calm x inside
  -- Up to the operator the trace amounts to an open status, and from there on setters decide.
  have parts : c.entries = c.entries.take a ++ found :: c.entries.drop (a + 1) := by
    rw [← here, List.getElem_cons_drop, List.take_append_drop]
  have operation : found.operation ≠ .blockStart := by
    intro start
    simp [start, Operation.operator?] at operator
  have reached : found.after (standing (c.entries.take a)) = .notImplemented := by
    simp [Record.after, isOpen, operation]
  rw [line.status, parts, standing, List.foldl_append, List.foldl_cons]
  change (c.entries.drop (a + 1)).foldl Record.after (found.after (standing _)) = _
  have length := c.length_entries
  rw [foldl_after_setters setters, reached]
  by_cases last : a + 1 = c.result.trace.length
  · rw [if_pos (List.drop_eq_nil_of_le (by omega)), if_pos last]
  · have more : c.entries.drop (a + 1) ≠ [] := by
      rw [ne_eq, List.drop_eq_nil_iff]
      omega
    rw [if_neg more, if_pos rfl, if_neg last]

end Clause

open Clause

/-- What a group call comes to when its block has come to an end with an operator that waits. -/
theorem endGroup_of_waiting {w : World} {i : Nat} {owner : Operator} {outer : Clause} {u : Value}
    (line : (w.clause i).InLine) (calm : (w.clause i).Calm) {a : Nat} {op : Operator}
    (waits : (w.clause i).waiting? = some (a, op)) :
    let ended := World.endGroup i owner outer (w, .ok u)
    if a + 1 = (w.clause i).result.trace.length then
      ∃ x, ended.2 = .error (.misused x (.unresolvedGroup owner))
    else ended.2 = .ok () := by
  have status := line.status_of_waiting calm waits
  intro ended
  split <;> rename_i last
  · rw [if_pos last] at status
    simp only [ended, World.endGroup, status, if_true]
    exact World.misuse_raises _ _
  · rw [if_neg last] at status
    simp [ended, World.endGroup, status]

/-- The status is always what the trace amounts to.  While an operator waits that is open only up
    to the next record, which can but be that of a setter; from then on it is a pass.  So a group
    that ends with an operator that waits is refused if the operator comes last in it, and closed
    as a pass otherwise. -/
theorem waiting_operator_status {code : Code} {w : World} {i : Nat} {o : Options}
    (fresh : w.clause i = { options := o }) :
    (∀ w', code.Visits w w' →
      (w'.clause i).result.status = standing (w'.clause i).result.trace ∧
      ((w'.clause i).Calm → ∀ a op, (w'.clause i).waiting? = some (a, op) →
        (w'.clause i).result.status =
          if a + 1 = (w'.clause i).result.trace.length then .notImplemented else .pass)) ∧
    (∀ (w' w₀ w₂ : World) owner v u (block : Value → Code),
      w'.handed? i (.logic owner) = some (v, w₀) → (block v).run w₀ = (w₂, .ok u) →
      (w₂.clause i).Calm → ∀ a op, (w₂.clause i).waiting? = some (a, op) →
      let called := w'.perform i (.logic owner) (.code fun v => (block v).run)
      if a + 1 = (w₂.clause i).result.trace.length then
        ∃ x, called.2 = .error (.misused x (.unresolvedGroup owner))
      else called.2 = .ok ()) := by
  constructor
  · intro w' visits
    have line : (w'.clause i).InLine := inLine_visits visits (fresh ▸ .fresh o)
    exact ⟨line.status_trace, fun calm _ _ waits => line.status_of_waiting calm waits⟩
  · intro w' w₀ w₂ owner v u block handed ran calm a op waits
    obtain ⟨step, _, opened, called⟩ := World.perform_group handed fun v => (block v).run
    have inside := Code.evolves_run inLine_evolution i (block v) w₀
    rw [ran] at inside
    have line : (w₂.clause i).InLine := inside (opened ▸ inLine_openGroup step.1)
    simp only [called, ran]
    exact endGroup_of_waiting line calm waits

theorem waiting_operator_status_start : World.start.clause 0 = { options := .default } ∧
    let w' := ((Code.calls 0 [(.that, .code, fun _ => .give (.int 1)),
      (.logic .and, .absent, fun _ => .give .null)]).run World.start).1
    (w'.clause 0).waiting? = some (1, .and) ∧ (w'.clause 0).result.status = .notImplemented := by
  refine ⟨rfl, ?_⟩
  intro w'
  have waits : (w'.clause 0).waiting? = some (1, .and) := by decide
  have calm : (w'.clause 0).Calm := by
    unfold Calm
    decide
  exact ⟨waits, ((waiting_operator_status (w := World.start) rfl).1 w' (Code.visits_run _ _)).2
    calm _ _ waits⟩

/-- It is not true that an operator keeps the status open for as long as it waits, nor that every
    group that ends with one is refused. -/
theorem setter_hides_waiting_operator :
    (¬ ∀ (code : Code) (w w' : World) (i : Nat) (o : Options), w.clause i = { options := o } →
      code.Visits w w' → (w'.clause i).Calm → ∀ a op, (w'.clause i).waiting? = some (a, op) →
      (w'.clause i).result.status = .notImplemented) ∧
    (¬ ∀ (w w₀ w₂ : World) (i : Nat) owner v u (block : Value → Code),
      w.handed? i (.logic owner) = some (v, w₀) → (block v).run w₀ = (w₂, .ok u) →
      (w₂.clause i).Calm → ∀ a op, (w₂.clause i).waiting? = some (a, op) →
      ∃ x, (w.perform i (.logic owner) (.code fun v => (block v).run)).2 =
        .error (.misused x (.unresolvedGroup owner))) := by
  constructor
  · intro claim
    let code := Code.calls 0 [(.that, .code, fun _ => .give (.int 1)),
      (.logic .and, .absent, fun _ => .give .null), (.that, .code, fun _ => .give (.int 2))]
    have calm : ((code.run World.start).1.clause 0).Calm := by
      unfold Calm
      decide
    have isOpen :=
      claim code World.start _ 0 _ rfl (code.visits_run World.start) calm 1 .and (by decide)
    exact absurd isOpen (by decide)
  · intro claim
    let block : Value → Code := fun _ => Code.calls 0 [(.logic .or, .absent, fun _ => .give .null),
      (.that, .code, fun _ => .give (.int 2))]
    let opened := World.start.update 0 ((World.start.clause 0).issue .and .notImplemented, [])
    let w₀ := opened.setClause 0 (opened.clause 0).openGroup
    have calm : (((block .null).run w₀).1.clause 0).Calm := by
      unfold Calm
      decide
    obtain ⟨x, refused⟩ := claim World.start w₀ _ 0 .and .null .null block rfl rfl calm 2 .or
      (by decide)
    have accepted :
        (World.start.perform 0 (.logic .and) (.code fun v => (block v).run)).2 = .ok () := rfl
    cases accepted.symm.trans refused

/-! ## Exceptions -/

/-- A clause amounts to an exception exactly as long as nothing but setters follows the last record
    of one in its trace.  For so long every facet that has the test amounts to an exception. -/
theorem exception_lasts_through_setters {code : Code} {w w' : World} {i : Nat} {o : Options}
    (fresh : w.clause i = { options := o }) (visits : code.Visits w w') :
    ((w'.clause i).result.status = .exception ↔ EndsAborted (w'.clause i).result.trace) ∧
    (EndsAborted (w'.clause i).result.trace → ∀ k name, (name, i) ∈ (w'.facet k).tests →
      (w'.facetResult k).status = .exception) := by
  have line : (w'.clause i).InLine := inLine_visits visits (fresh ▸ .fresh o)
  have status : (w'.clause i).result.status = .exception ↔
      EndsAborted (w'.clause i).result.trace := by
    rw [line.status_trace, standing_eq_exception]
  refine ⟨status, ?_⟩
  intro aborted k name member
  have raised : Status.exception ∈ (w'.facetResult k).tests.map fun test => test.2.status := by
    rw [← status.mpr aborted]
    exact List.mem_map.mpr ⟨(name, (w'.clause i).result), List.mem_map.mpr ⟨_, member, rfl⟩, rfl⟩
  have counted := List.contains_iff_mem.mpr raised
  show rollUp _ ((w'.facetResult k).tests.map fun test => test.2.status) = _
  simp only [rollUp, counted, Bool.or_true, if_true]

theorem exception_lasts_through_err : World.start.clause 0 = { options := .default } ∧
    let w' := ((Code.calls 0 [(.err, .code, fun _ => Code.calls 0
      [(.that, .code, fun _ => Code.raise (.typeError "x") .fail)])]).run World.start).1
    EndsAborted (w'.clause 0).result.trace ∧ (w'.clause 0).result.status = .exception := by
  refine ⟨rfl, ?_⟩
  intro w'
  have aborted : EndsAborted (w'.clause 0).result.trace :=
    ⟨[], _, [_], rfl, rfl, by decide⟩
  exact ⟨aborted,
    (exception_lasts_through_setters (w := World.start) rfl (Code.visits_run _ _)).1.mpr aborted⟩

/-- It is not true that an exception stays the status whatever follows it. -/
theorem verdict_hides_exception : ¬ ∀ (code : Code) (w w' : World) (i : Nat) (o : Options),
    w.clause i = { options := o } → code.Visits w w' →
    (∃ r ∈ (w'.clause i).result.trace, r.status = .exception) →
    (w'.clause i).result.status = .exception := by
  intro claim
  let code := Code.calls 0 [(.err, .code, fun _ => Code.calls 0
      [(.that, .code, fun _ => Code.raise (.typeError "x") .fail)]),
    (.check .isType, .code, fun _ => .give (.cls "Exception"))]
  have kept := claim code World.start _ 0 _ rfl (code.visits_run World.start) (by decide +kernel)
  have passed : ((code.run World.start).1.clause 0).result.status = .pass := by decide +kernel
  cases passed.symm.trans kept

end Assay
