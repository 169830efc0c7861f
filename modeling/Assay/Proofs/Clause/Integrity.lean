import Assay.Proofs.Clause.Frame
import Assay.Proofs.Clause.Places
import Assay.Proofs.Clause.Succession

/-! # What a trace is good for

The records of a trace are linked to their neighbours, so that following the links gives the trace
in order and comes to an end.  A trace only grows: what a record says for good it says from then
on, and a verdict is given on it once.
-/

namespace Assay

/-! ## Links -/

/-- A record knows its place among a number of records and points at its neighbours. -/
structure Record.LinkedAt (r : Record) (j n : Nat) : Prop where
  index : r.index = some j
  previous : r.previous = if j = 0 then none else some (j - 1)
  next : r.next = if j + 1 = n then none else some (j + 1)

/-- Every record is linked to its neighbours. -/
def Linked (records : List Record) : Prop :=
  ∀ j (r : Record), records[j]? = some r → r.LinkedAt j records.length

theorem linked_nil : Linked [] := by simp [Linked]

theorem linked_unjudged {records : List Record} :
    Linked (records.map Record.unjudged) ↔ Linked records := by
  constructor
  · intro linked j r here
    have judged := linked j r.unjudged (by simp [here])
    rw [List.length_map] at judged
    exact ⟨judged.index, judged.previous, judged.next⟩
  · intro linked j r here
    simp only [List.getElem?_map, Option.map_eq_some_iff] at here
    obtain ⟨x, here, rfl⟩ := here
    rw [List.length_map]
    exact ⟨(linked j x here).index, (linked j x here).previous, (linked j x here).next⟩

/-- Adding a record links it to the one before. -/
theorem Linked.add {t : TestResult} (linked : Linked t.trace) {r : Record}
    (previous : r.previous = none) (next : r.next = none) : Linked (t.add r).trace := by
  intro j x here
  have length : (t.add r).trace.length = t.trace.length + 1 := by simp [TestResult.add]
  rw [length]
  simp only [TestResult.add] at here
  rcases Nat.lt_trichotomy j t.trace.length with before | last | beyond
  · rw [List.getElem?_append_left (by simpa using before), List.getElem?_modify,
      Option.map_eq_map, Option.map_eq_some_iff] at here
    obtain ⟨y, here, rfl⟩ := here
    have was := linked j y here
    by_cases final : t.trace.length - 1 = j
    · refine ⟨by simpa [final] using was.index, by simpa [final] using was.previous, ?_⟩
      simp only [final, if_true]
      rw [if_neg (by omega), show t.trace.length = j + 1 by omega]
    · refine ⟨by simpa [final] using was.index, by simpa [final] using was.previous, ?_⟩
      simp only [final, if_false, was.next]
      rw [if_neg (by omega), if_neg (by omega)]
  · subst last
    rw [List.getElem?_append_right (by simp), List.length_modify, Nat.sub_self,
      List.getElem?_cons_zero, Option.some.injEq] at here
    subst here
    refine ⟨rfl, ?_, by simpa using next⟩
    by_cases empty : t.trace.length = 0
    · simp [empty, previous]
    · simp [empty]
  · rw [List.getElem?_eq_none (by simp; omega)] at here
    cases here

/-- Following the links from a place gives the records from there on. -/
theorem Linked.follow {records : List Record} (linked : Linked records) (limit j : Nat)
    (inside : j < records.length) :
    TestResult.follow records limit (some j) = (records.drop j).take limit := by
  induction limit generalizing j with
  | zero => rfl
  | succ limit ih =>
      have here := List.getElem?_eq_getElem inside
      simp only [TestResult.follow, here, (linked j _ here).next, List.drop_eq_getElem_cons inside,
        List.take_succ_cons, List.cons.injEq, true_and]
      split
      · rename_i last
        rw [last, List.drop_length]
        cases limit <;> rfl
      · exact ih (j + 1) (by omega)

/-- Where records are linked, following the links gives the trace in order and then ends. -/
theorem Linked.walk {t : TestResult} (linked : Linked t.trace) (limit : Nat) :
    t.walk limit = t.trace.take limit := by
  unfold TestResult.walk
  cases trace : t.trace with
  | nil => cases limit <;> rfl
  | cons r rest =>
      rw [← trace]
      have inside : 0 < t.trace.length := by simp [trace]
      simpa [trace] using linked.follow limit 0 inside

namespace Clause

variable {c c' : Clause} {r : Record}

theorem Appends.linked (appends : Appends c r c') (previous : r.previous = none)
    (next : r.next = none) (linked : Linked c.result.trace) : Linked c'.result.trace := by
  have added := linked_unjudged.mpr (linked.add previous next)
  exact linked_unjudged.mp (show Linked c'.unjudged from appends ▸ added)

theorem linked_evolution :
    Evolution fun c c' : Clause => Linked c.result.trace → Linked c'.result.trace where
  refl _ := id
  trans first second := second ∘ first
  issue issued := (appends_issued _ issued).choose_spec.linked rfl rfl
  setSubject c _ captured v := (c.appends_setSubject _ captured v).linked rfl rfl
  restoreTo _ _ := id
  judge c m captured matched := (c.appends_judge m captured matched).linked rfl rfl
  abort c _ role text captured := (c.appends_abort _ role text captured).linked rfl rfl
  leaveGroup {outer _} inside linked := inside (outer.appends_openGroup.linked rfl rfl linked)
  closeGroup {outer inner} inside _ linked :=
    (appends_closeGroup outer inner).linked rfl rfl
      (inside (outer.appends_openGroup.linked rfl rfl linked))

/-- Wherever code comes by, the records of a clause are linked. -/
theorem linked_visits {code : Code} {w w' : World} {i : Nat} (visits : code.Visits w w')
    (linked : Linked (w.clause i).result.trace) : Linked (w'.clause i).result.trace :=
  Code.evolves_visits linked_evolution (fun c => c.appends_openGroup.linked rfl rfl) i visits linked

/-! ## Verdicts are given once -/

/-- What has been decided stays so. -/
def Settles (c c' : Clause) : Prop :=
  ∀ (j : Nat) (r : Record), c.entries[j]? = some r → r.status ≠ .notImplemented →
    ∃ r', c'.entries[j]? = some r' ∧ r'.status = r.status

theorem Settles.trans {a b c : Clause} (first : Settles a b) (second : Settles b c) :
    Settles a c := by
  intro j r here decided
  obtain ⟨r', there, same⟩ := first j r here decided
  obtain ⟨r'', beyond, same'⟩ := second j r' there (same ▸ decided)
  exact ⟨r'', beyond, same'.trans same⟩

theorem settles_append (entries : c'.entries = c.entries ++ [r]) : Settles c c' := by
  intro j x here _
  rw [entries, List.getElem?_append_left (List.getElem?_eq_some_iff.mp here).1]
  exact ⟨x, here, rfl⟩

/-- The operator that a `not` has deferred has no verdict yet. -/
def Slots (c : Clause) : Prop :=
  ∀ d, c.deferred = some d → ∃ r op, c.entries[d]? = some r ∧ r.status = .notImplemented ∧
    r.operation.operator? = some op

theorem slots_none (none : c.deferred = none) : c.Slots := by
  intro d pushed
  cases none.symm.trans pushed

theorem Slots.append (slots : c.Slots) (entries : c'.entries = c.entries ++ [r])
    (deferred : c'.deferred = c.deferred) : c'.Slots := by
  intro d pushed
  obtain ⟨x, op, here, isOpen, operator⟩ := slots d (deferred ▸ pushed)
  rw [entries, List.getElem?_append_left (List.getElem?_eq_some_iff.mp here).1]
  exact ⟨x, op, here, isOpen, operator⟩

/-- A verdict decides what waits for it, and nothing that was decided before. -/
theorem Slots.resolve (slots : c.Slots) (judged : r.operation.operator? = none) (v : Status) :
    let c' := ((c.add r).resolve c.result.trace.length v).1
    c'.Slots ∧ Settles c c' := by
  intro c'
  obtain ⟨_, _, deferred, entries⟩ := c.resolve_add judged v
  constructor
  · intro d pushed
    rw [deferred] at pushed
    split at pushed
    · cases pushed
    · rename_i kept
      obtain ⟨x, op, here, isOpen, operator⟩ := slots d pushed
      have deferred? : c.deferred? = some (d, op) :=
        c.deferred?_eq_some.mpr ⟨pushed, x, here, operator⟩
      have idle : c.waiting? = none := by simpa [deferred?] using kept
      rw [entries, settled, idle, List.getElem?_append_left (List.getElem?_eq_some_iff.mp here).1]
      exact ⟨x, op, here, isOpen, operator⟩
  · intro j x here decided
    -- The operators that are given the verdict are open, so none of them stands here.
    have same := c.getElem?_settled v (j := j)
      (by
        rintro a op waits rfl
        obtain ⟨_, y, there, isOpen, _⟩ := c.waiting?_eq_some.mp waits
        cases here.symm.trans there
        exact decided isOpen)
      (by
        rintro d pushed rfl
        obtain ⟨y, _, there, isOpen, _⟩ := slots d pushed
        cases here.symm.trans there
        exact decided isOpen)
    rw [entries, List.getElem?_append_left
      (by simpa using (List.getElem?_eq_some_iff.mp here).1), same]
    exact ⟨x, here, rfl⟩

theorem settles_openGroup : c.openGroup.Slots ∧ Settles c c.openGroup :=
  ⟨slots_none rfl, settles_append c.entries_openGroup⟩

/-- What all steps of a clause keep: records below everything that waits, and, as long as what is
    deferred is open, all verdicts. -/
structure Lasts (c c' : Clause) : Prop where
  keeps : ∀ base, Above base c → Keeps base c c'
  settles : c.Slots → c'.Slots ∧ Settles c c'

/-- A group finds what was deferred around it as it was. -/
theorem Lasts.resume {outer inner : Clause} (inside : Lasts outer.openGroup inner)
    (slots : outer.Slots) : (Clause.resume outer inner).Slots := by
  intro d pushed
  obtain ⟨x, op, here, isOpen, operator⟩ := slots d pushed
  have before := (List.getElem?_eq_some_iff.mp here).1
  have kept := (inside.keeps _ (.openGroup (Nat.le_refl _))).kept d before
  rw [getElem?_openGroup before, here] at kept
  exact ⟨x, op, kept, isOpen, operator⟩

theorem Lasts.closed {outer inner : Clause} (inside : Lasts outer.openGroup inner)
    (slots : outer.Slots) :
    let ended := (closeGroup outer { inner with depth := inner.depth - 1 }).1
    ended.Slots ∧ Settles inner ended :=
  Slots.resolve (c := Clause.resume outer { inner with depth := inner.depth - 1 })
    (inside.resume slots) (r := .logic .blockEnd (some outer.result.status)) rfl inner.result.status

theorem lasts_evolution : Evolution Lasts where
  refl c := ⟨fun base => (keeps_evolution base).refl c,
    fun slots => ⟨slots, fun _ r here _ => ⟨r, here, rfl⟩⟩⟩
  trans first second := ⟨fun base => (keeps_evolution base).trans (first.keeps base)
    (second.keeps base), fun slots => ⟨(second.settles (first.settles slots).1).1,
      (first.settles slots).2.trans (second.settles (first.settles slots).1).2⟩⟩
  issue := by
    intro c op step issued
    refine ⟨fun base => (keeps_evolution base).issue issued, fun slots => ?_⟩
    rcases c.addOperator_cases issued with ⟨_, left, same, _⟩ | ⟨a, _, left, waits, _, same⟩
    · exact same ▸ ⟨slots.append (c.entries_issue op left) rfl,
        settles_append (c.entries_issue op left)⟩
    · obtain ⟨_, x, here, isOpen, operator⟩ := c.waiting?_eq_some.mp waits
      have pushed : ({ c with deferred := some a } : Clause).Slots := by
        rintro d ⟨⟩
        exact ⟨x, _, here, isOpen, operator⟩
      have entries := ({ c with deferred := some a } : Clause).entries_issue .not left
      exact same ▸ ⟨pushed.append entries rfl, settles_append entries⟩
  setSubject c call captured v := ⟨fun base => (keeps_evolution base).setSubject c call captured v,
    fun slots => ⟨slots.append (c.entries_setSubject _ captured v) (by simp),
      settles_append (c.entries_setSubject _ captured v)⟩⟩
  restoreTo c v := ⟨fun base => (keeps_evolution base).restoreTo c v,
    fun slots => ⟨slots, fun _ r here _ => ⟨r, here, rfl⟩⟩⟩
  judge c m captured matched := ⟨fun base => (keeps_evolution base).judge c m captured matched,
    fun slots => slots.resolve (by cases m <;> rfl) _⟩
  abort c call role text captured := ⟨fun base =>
      (keeps_evolution base).abort c call role text captured,
    fun slots => ⟨slots.append (c.entries_abort _ role text captured) rfl,
      settles_append (c.entries_abort _ role text captured)⟩⟩
  leaveGroup {outer _} inside := ⟨fun base => (keeps_evolution base).leaveGroup (inside.keeps base),
    fun _ =>
      have opened := outer.settles_openGroup
      have ran := inside.settles opened.1
      ⟨ran.1, opened.2.trans ran.2⟩⟩
  closeGroup {outer _} inside resolved :=
    ⟨fun base => (keeps_evolution base).closeGroup (inside.keeps base) resolved, fun slots =>
      have opened := outer.settles_openGroup
      have ran := inside.settles opened.1
      have ended := inside.closed slots
      ⟨ended.1, (opened.2.trans ran.2).trans ended.2⟩⟩

theorem lasts_succession :
    Succession Slots Lasts fun c c' => c.Slots → c'.Slots ∧ Settles c c' where
  evolution := lasts_evolution
  opened c := ⟨fun _ above =>
      have length := above.length
      ⟨.openGroup length, fun _ below => getElem?_openGroup (Nat.lt_of_lt_of_le below length)⟩,
    fun _ => c.settles_openGroup⟩
  weaken := Lasts.settles
  trans first second slots :=
    have one := first slots
    have two := second one.1
    ⟨two.1, one.2.trans two.2⟩
  known step slots := (step slots).1
  left _ slots := ⟨slots, fun _ r here _ => ⟨r, here, rfl⟩⟩
  closed slots inside _ := inside.closed slots

end Clause

/-! ## From one state to the next -/

/-- A record has become another one: it still says what it says for good, and its status is
    another only if it was open. -/
structure Record.Becomes (r r' : Record) : Prop where
  lasting : r'.lasting = r.lasting
  status : r.status ≠ .notImplemented → r'.status = r.status

/-- Every record of a trace has become the one at its place in another. -/
def Grown (records records' : List Record) : Prop :=
  ∀ (j : Nat) (r : Record), records[j]? = some r → ∃ r', records'[j]? = some r' ∧ r.Becomes r'

namespace Clause

theorem Settles.grown {c c' : Clause} (settles : Settles c c') (extended : Extends c c') :
    Grown c.result.trace c'.result.trace := by
  intro j r here
  obtain ⟨more, same⟩ := extended
  have kept : c'.lasting[j]? = some r.lasting := by
    rw [← same, List.getElem?_append_left
      (by simpa using (List.getElem?_eq_some_iff.mp here).1)]
    simp [lasting, here]
  simp only [lasting, List.getElem?_map, Option.map_eq_some_iff] at kept
  obtain ⟨r', there, lasting⟩ := kept
  refine ⟨r', there, lasting, fun decided => ?_⟩
  obtain ⟨x, found, status⟩ := settles j r.unlinked (by simp [getElem?_entries, here]) decided
  rw [getElem?_entries, there, Option.map_some, Option.some.injEq] at found
  exact (congrArg Record.status found).trans status

end Clause

open Clause

/-- In every state that code comes by from a new clause the records are linked to their neighbours,
    so that following the links gives the trace in order and then ends.  From each of these states
    to every later one the trace only grows: its records say what they said, and a verdict is given
    on each of them once. -/
theorem trace_integrity {code : Code} {w : World} {i : Nat} {o : Options}
    (fresh : w.clause i = { options := o }) :
    (∀ w' ∈ code.course w, Linked (w'.clause i).result.trace ∧
      ∀ limit, (w'.clause i).result.walk limit = (w'.clause i).result.trace.take limit) ∧
    (code.course w).Pairwise fun w' w'' =>
      Grown (w'.clause i).result.trace (w''.clause i).result.trace := by
  constructor
  · intro w' member
    have linked := linked_visits (i := i) (Code.mem_course.mp member) (fresh ▸ linked_nil)
    exact ⟨linked, linked.walk⟩
  · have slots : (w.clause i).Slots := fresh ▸ slots_none rfl
    have settled : (code.course w).Pairwise _ := lasts_succession.pairwise slots
    have extended : (code.course w).Pairwise _ := extends_succession.pairwise (i := i) trivial
    refine (settled.and extended).imp_of_mem fun {w' _} member _ both => ?_
    have slots' := (lasts_succession.visits (Code.mem_course.mp member) slots).1
    exact (both.1 slots').2.grown both.2

/-- The verdict on `is` reaches the operator that the `not` has deferred, two records back. -/
theorem trace_integrity_deferred : World.start.clause 0 = { options := .default } ∧
    let code := Code.calls 0 [(.that, .code, fun _ => .give (.int 1)),
      (.logic .and, .absent, fun _ => .give .null), (.logic .not, .absent, fun _ => .give .null),
      (.check .is, .code, fun _ => .give (.int 2))]
    let final := ((code.run World.start).1.clause 0).result
    ((code.course World.start).map fun w => (w.clause 0).result.trace.map (·.status)) =
      [[], [], [.set], [.set, .notImplemented], [.set, .notImplemented, .notImplemented],
        [.set, .notImplemented, .notImplemented], [.set, .pass, .pass, .pass]] ∧
    (code.course World.start).Pairwise (fun w' w'' =>
      Grown (w'.clause 0).result.trace (w''.clause 0).result.trace) ∧
    final.walk 9 = final.trace := by
  refine ⟨rfl, ?_⟩
  intro code final
  have whole : (∀ w' ∈ code.course .start, _) ∧ _ := trace_integrity (i := 0) rfl
  have ended := (whole.1 _ (Code.mem_course.mpr (code.visits_run World.start))).2 9
  exact ⟨by decide, whole.2, ended.trans (List.take_of_length_le (by decide))⟩

end Assay
