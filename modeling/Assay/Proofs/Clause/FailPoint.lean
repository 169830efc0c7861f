import Assay.Proofs.Clause.Closing
import Assay.Proofs.Clause.Integrity
import Mathlib.Order.Bounds.Basic

/-! # Where a chain has failed

Groups are brackets in a trace: each is opened by one record and closed by another.  A verdict is
at the top of the chain if no group is open after its record, be it that of a matcher or that of
the end of a group.  The fail point of a clause is kept up to date by a count of open groups; it is
the first failure at the top since the last pass there, and both can be read off the trace as long
as no group is left without being closed.
-/

namespace Assay

/-! ## Groups in a trace -/

/-- How many groups are open after an operation, given how many were before it; nothing if there
    is none that it could close. -/
def Operation.nest (n : Nat) : Operation → Option Nat
  | .blockStart => some (n + 1)
  | .blockEnd => if n = 0 then none else some (n - 1)
  | _ => some n

/-- No call stands for either end of a group. -/
theorem Call.nest_operation (call : Call) (n : Nat) : call.operation.nest n = some n := by
  cases call with
  | check m => cases m <;> rfl
  | that | pick | err | logic op => rfl

/-- How many groups are open after some records; nothing if one is closed that was not open. -/
def openGroups (records : List Record) : Option Nat :=
  records.foldlM (fun n r => r.operation.nest n) 0

/-- Whether a verdict comes of an operation: matchers and the ends of groups have one. -/
def Operation.judges : Operation → Bool
  | .is | .like | .isType | .blockEnd => true
  | _ => false

theorem Operation.operator?_of_judges {o : Operation} (judges : o.judges = true) :
    o.operator? = none := by
  cases o <;> simp [Operation.judges] at judges <;> rfl

/-- The verdict that a record gives. -/
def Record.verdict? (r : Record) : Option Status :=
  if r.operation.judges then some r.status else none

/-- A verdict stands at an index, and no group is open after it. -/
structure TopVerdict (records : List Record) (s : Status) (j : Nat) : Prop where
  verdict : records[j]?.bind Record.verdict? = some s
  top : openGroups (records.take (j + 1)) = some 0

/-- The failures at the top of a chain since the last pass there. -/
def failures (records : List Record) : Set Nat :=
  { j | TopVerdict records .fail j ∧ ∀ k, TopVerdict records .pass k → k < j }

/-- What groups and verdicts depend on. -/
def Record.mark (r : Record) : Operation × Option Status := (r.operation, r.verdict?)

section mark

variable {records records' : List Record}

theorem openGroups_congr (same : records.map Record.mark = records'.map Record.mark) :
    openGroups records = openGroups records' := by
  have folded (records : List Record) : openGroups records =
      (records.map Record.mark).foldlM (fun n mark => mark.1.nest n) 0 := by
    rw [List.foldlM_map]
    rfl
  rw [folded, folded, same]

theorem TopVerdict.congr (same : records.map Record.mark = records'.map Record.mark)
    {s : Status} {j : Nat} (top : TopVerdict records s j) : TopVerdict records' s j where
  verdict := by
    have folded (records : List Record) :
        records[j]?.bind Record.verdict? = (records.map Record.mark)[j]?.bind (·.2) := by
      cases h : records[j]? <;> simp [h, Record.mark]
    rw [folded, ← same, ← folded, top.verdict]
  top := by
    rw [← top.top]
    refine (openGroups_congr ?_).symm
    rw [List.map_take, List.map_take, same]

theorem failures_congr (same : records.map Record.mark = records'.map Record.mark) :
    failures records = failures records' := by
  ext j
  exact ⟨fun ⟨fails, last⟩ => ⟨fails.congr same, fun k passes => last k (passes.congr same.symm)⟩,
    fun ⟨fails, last⟩ => ⟨fails.congr same.symm, fun k passes => last k (passes.congr same)⟩⟩

end mark

/-! ## One record more -/

section append

variable {records : List Record} {r : Record}

theorem openGroups_append {n : Nat} (opened : openGroups records = some n) :
    openGroups (records ++ [r]) = r.operation.nest n := by
  simp only [openGroups] at opened
  simp only [openGroups, List.foldlM_append, opened, Option.bind_eq_bind, Option.bind_some,
    List.foldlM_cons, List.foldlM_nil]
  cases r.operation.nest n <;> rfl

theorem TopVerdict.before {s : Status} {j : Nat} (top : TopVerdict records s j) :
    j < records.length := by
  have verdict := top.verdict
  cases here : records[j]? with
  | none => simp [here] at verdict
  | some x => exact (List.getElem?_eq_some_iff.mp here).1

theorem topVerdict_append {s : Status} {j : Nat} : TopVerdict (records ++ [r]) s j ↔
    TopVerdict records s j ∨
      j = records.length ∧ r.verdict? = some s ∧ openGroups (records ++ [r]) = some 0 := by
  rcases Nat.lt_trichotomy j records.length with before | last | beyond
  · have same : (records ++ [r]).take (j + 1) = records.take (j + 1) :=
      List.take_append_of_le_length before
    constructor
    · rintro ⟨verdict, top⟩
      rw [List.getElem?_append_left before] at verdict
      exact .inl ⟨verdict, same ▸ top⟩
    · rintro (⟨verdict, top⟩ | ⟨last, _⟩)
      · exact ⟨by rw [List.getElem?_append_left before, verdict], same ▸ top⟩
      · omega
  · subst last
    have whole : (records ++ [r]).take (records.length + 1) = records ++ [r] :=
      List.take_of_length_le (by simp)
    constructor
    · rintro ⟨verdict, top⟩
      exact .inr ⟨rfl, by simpa using verdict, whole ▸ top⟩
    · rintro (top | ⟨_, verdict, top⟩)
      · exact absurd top.before (Nat.lt_irrefl _)
      · exact ⟨by simpa using verdict, whole.symm ▸ top⟩
  · constructor
    · intro top
      have := top.before
      simp only [List.length_append, List.length_singleton] at this
      omega
    · rintro (top | ⟨last, _⟩)
      · have := top.before
        omega
      · omega

theorem failures_before {j : Nat} (fails : j ∈ failures records) : j < records.length :=
  fails.1.before

/-- What is no verdict at the top leaves the failures there as they are. -/
theorem failures_append_other (other : openGroups (records ++ [r]) = some 0 →
    r.verdict? ≠ some .fail ∧ r.verdict? ≠ some .pass) :
    failures (records ++ [r]) = failures records := by
  have same (s : Status) (decides : s = .fail ∨ s = .pass) (j : Nat) :
      TopVerdict (records ++ [r]) s j ↔ TopVerdict records s j := by
    rw [topVerdict_append, or_iff_left]
    rintro ⟨_, verdict, top⟩
    rcases decides with rfl | rfl
    · exact (other top).1 verdict
    · exact (other top).2 verdict
  ext j
  simp only [failures, Set.mem_ofPred_eq, same .fail (.inl rfl), same .pass (.inr rfl)]

theorem failures_append_fail (verdict : r.verdict? = some .fail)
    (top : openGroups (records ++ [r]) = some 0) :
    failures (records ++ [r]) = insert records.length (failures records) := by
  have passes (k : Nat) : TopVerdict (records ++ [r]) .pass k ↔ TopVerdict records .pass k := by
    simp [topVerdict_append, verdict]
  ext j
  simp only [failures, Set.mem_ofPred_eq, Set.mem_insert_iff, passes,
    topVerdict_append (s := .fail)]
  constructor
  · rintro ⟨fails | ⟨last, _⟩, after⟩
    · exact .inr ⟨fails, after⟩
    · exact .inl last
  · rintro (rfl | ⟨fails, after⟩)
    · exact ⟨.inr ⟨rfl, verdict, top⟩, fun k passed => passed.before⟩
    · exact ⟨.inl fails, after⟩

theorem failures_append_pass (verdict : r.verdict? = some .pass)
    (top : openGroups (records ++ [r]) = some 0) : failures (records ++ [r]) = ∅ := by
  refine Set.eq_empty_of_forall_notMem fun j fails => ?_
  have last := fails.2 records.length (topVerdict_append.mpr (.inr ⟨rfl, verdict, top⟩))
  rcases topVerdict_append.mp fails.1 with earlier | ⟨rfl, failed, _⟩
  · exact absurd earlier.before (by omega)
  · exact absurd last (Nat.lt_irrefl _)

end append

/-! ## The first failure -/

/-- An index is the least of a set, or there is neither. -/
def Points (p : Option Nat) (s : Set Nat) : Prop :=
  match p with
  | none => s = ∅
  | some p => IsLeast s p

theorem Points.eq_some_iff {p : Option Nat} {s : Set Nat} (points : Points p s) (j : Nat) :
    p = some j ↔ IsLeast s j := by
  cases p with
  | none => simp [show s = ∅ from points, IsLeast]
  | some q =>
      have least : IsLeast s q := points
      simp only [Option.some.injEq]
      exact ⟨fun same => same ▸ least, fun other => least.unique other⟩

theorem Points.eq_none_iff {p : Option Nat} {s : Set Nat} (points : Points p s) :
    p = none ↔ s = ∅ := by
  cases p with
  | none => exact iff_of_true rfl points
  | some q =>
      have least : IsLeast s q := points
      simp only [reduceCtorEq, false_iff]
      exact Set.Nonempty.ne_empty ⟨q, least.1⟩

/-- A verdict moves the fail point to the first failure at the top since the last pass there. -/
theorem Points.verdict {records : List Record} {p : Option Nat}
    (points : Points p (failures records)) {r : Record} {s : Status}
    (verdict : r.verdict? = some s) {n : Nat}
    (opened : openGroups (records ++ [r]) = some n) :
    Points (if n = 0 then Clause.failPointAfter p records.length s else p)
      (failures (records ++ [r])) := by
  split
  · rename_i top
    subst top
    unfold Clause.failPointAfter
    split
    · rename_i failed
      rw [failures_append_fail (failed ▸ verdict) opened]
      cases p with
      | none => simp [Points, show failures records = ∅ from points]
      | some q =>
          have least : IsLeast (failures records) q := points
          refine ⟨.inr least.1, fun j member => ?_⟩
          rcases member with rfl | earlier
          · exact Nat.le_of_lt (failures_before least.1)
          · exact least.2 earlier
    · split
      · rename_i passed
        exact failures_append_pass (passed ▸ verdict) opened
      · rename_i failed passed
        rw [failures_append_other fun _ => by simp [verdict, failed, passed]]
        exact points
  · rename_i inside
    rw [failures_append_other fun top => absurd (Option.some.inj (opened.symm.trans top)) inside]
    exact points

namespace Clause

variable {c c' : Clause}

/-! ## What verdicts change of a trace -/

theorem map_mark_trace (c : Clause) :
    c.result.trace.map Record.mark = c.entries.map Record.mark := by
  rw [entries, List.map_map]
  rfl

theorem mark_of_operator {r r' : Record} {op : Operator}
    (operator : r.operation.operator? = some op) (same : r'.operation = r.operation) :
    r'.mark = r.mark := by
  cases operation : r.operation <;> simp [operation, Operation.operator?] at operator
  simp [Record.mark, Record.verdict?, Operation.judges, same, operation]

theorem map_mark_settleAt {records : List Record} {i : Nat} {op : Operator}
    (operator : records[i]?.bind (·.operation.operator?) = some op) (v : Status) :
    (settleAt records i op v).1.map Record.mark = records.map Record.mark := by
  refine List.ext_getElem? fun j => ?_
  simp only [settleAt, List.getElem?_map, List.getElem?_modify]
  cases here : records[j]? with
  | none => rfl
  | some r =>
      by_cases same : i = j
      · subst same
        simp only [here, Option.bind_some] at operator
        simp only [if_true, Option.map_eq_map, Option.map_some, Option.some.injEq]
        exact mark_of_operator operator rfl
      · simp [same]

theorem operator_settleAt (records : List Record) (i j : Nat) (op : Operator) (v : Status) :
    (settleAt records i op v).1[j]?.bind (·.operation.operator?) =
      records[j]?.bind (·.operation.operator?) := by
  simp only [settleAt, List.getElem?_modify]
  cases records[j]? with
  | none => rfl
  | some r =>
      simp only [Option.map_eq_map, Option.map_some, Option.bind_some]
      split <;> rfl

/-- Operators that are given a verdict are neither groups nor verdicts. -/
theorem map_mark_settled (c : Clause) (v : Status) :
    (c.settled v).1.map Record.mark = c.entries.map Record.mark := by
  unfold settled
  split
  · rfl
  · rename_i a op waits
    obtain ⟨_, r, here, _, operator⟩ := c.waiting?_eq_some.mp waits
    have first := map_mark_settleAt (by rw [here]; exact operator : c.entries[a]?.bind _ = _) v
    unfold settleSlot
    split
    · exact first
    · rename_i d op' pushed
      obtain ⟨_, r', here', operator'⟩ := c.deferred?_eq_some.mp pushed
      rw [map_mark_settleAt (by rw [operator_settleAt, here']; exact operator'), first]

theorem openGroups_resolve {r : Record} {n m : Nat} (judged : r.operation.operator? = none)
    (opened : openGroups c.entries = some n) (nested : r.operation.nest n = some m) (v : Status) :
    openGroups ((c.add r).resolve c.result.trace.length v).1.entries = some m := by
  obtain ⟨_, _, _, entries⟩ := c.resolve_add judged v
  have settled := (openGroups_congr (c.map_mark_settled v)).trans opened
  rw [entries, openGroups_append settled]
  exact nested

theorem openGroups_openGroup {n : Nat} (opened : openGroups c.entries = some n) :
    openGroups c.openGroup.entries = some (n + 1) := by
  rw [entries_openGroup, openGroups_append opened]
  rfl

/-! ## Every step keeps the fail point in line with the trace -/

/-- The clause takes no more groups for open than its trace has, and where it is right about their
    number, the fail point is the first failure at the top since the last pass there. -/
def Pinned (c : Clause) : Prop :=
  ∃ n, openGroups c.entries = some n ∧ c.depth ≤ n ∧
    (c.depth = n → Points c.result.failPoint (failures c.entries))

theorem failPoint_issued {op : Operator} {step : Clause × List String}
    (issued : c.addOperator op = .ok step) : step.1.result.failPoint = c.result.failPoint := by
  rcases c.addOperator_cases issued with ⟨_, _, same, _⟩ | ⟨_, _, _, _, _, same⟩ <;> exact same ▸ rfl

theorem pinned_new (o : Options) : Pinned { options := o } := by
  refine ⟨0, rfl, Nat.le_refl _, fun _ => ?_⟩
  refine Set.eq_empty_of_forall_notMem fun j fails => ?_
  exact absurd (failures_before fails) (Nat.not_lt_zero j)

/-- A record that is neither a verdict nor an end of a group leaves all as it is. -/
theorem Pinned.append {r : Record} (pinned : c.Pinned) (entries : c'.entries = c.entries ++ [r])
    (plain : ∀ n, r.operation.nest n = some n)
    (undecided : r.operation.judges = true → r.status ≠ .fail ∧ r.status ≠ .pass)
    (depth : c'.depth = c.depth) (failPoint : c'.result.failPoint = c.result.failPoint) :
    c'.Pinned := by
  obtain ⟨n, opened, deep, points⟩ := pinned
  refine ⟨n, ?_, depth ▸ deep, fun right => ?_⟩
  · rw [entries, openGroups_append opened, plain]
  · have other : r.verdict? ≠ some .fail ∧ r.verdict? ≠ some .pass := by
      unfold Record.verdict?
      split
      · rename_i judges
        simpa using undecided judges
      · simp
    rw [entries, failures_append_other fun _ => other, failPoint]
    exact points (depth ▸ right)

theorem Pinned.openGroup (pinned : c.Pinned) : c.openGroup.Pinned := by
  obtain ⟨n, opened, deep, points⟩ := pinned
  refine ⟨n + 1, openGroups_openGroup opened, Nat.succ_le_succ deep, fun right => ?_⟩
  rw [entries_openGroup, failures_append_other fun _ => ⟨by decide, by decide⟩]
  exact points (Nat.succ_injective right)

theorem Pinned.resolve {r : Record} (judges : r.operation.judges = true) {n m : Nat}
    (opened : openGroups c.entries = some n) (nested : r.operation.nest n = some m)
    (deep : c.depth ≤ m) (points : c.depth = m → Points c.result.failPoint (failures c.entries))
    (v : Status) : Pinned ((c.add r).resolve c.result.trace.length v).1 := by
  have judged := Operation.operator?_of_judges judges
  obtain ⟨status, _, _, entries⟩ := c.resolve_add judged v
  have nested' := openGroups_resolve judged opened nested v
  have depth : ((c.add r).resolve c.result.trace.length v).1.depth = c.depth := resolve_depth _ _ _
  refine ⟨m, nested', depth ▸ deep, fun right => ?_⟩
  rw [depth] at right
  have pinned := points right
  rw [← failures_congr (c.map_mark_settled v)] at pinned
  have moved := pinned.verdict (r := { r.unlinked with
    right := v, status := (c.settled v).2, invert := c.inverts || r.invert })
    (if_pos judges) (entries ▸ nested')
  rw [length_settled, ← entries, ← status, ← right] at moved
  rwa [resolve_failPoint]

theorem Pinned.judge (pinned : c.Pinned) (m : Matcher) (captured : Option Snapshot)
    (matched : Bool) : (c.judge m captured matched).1.Pinned := by
  obtain ⟨n, opened, deep, points⟩ := pinned
  exact Pinned.resolve (by cases m <;> rfl) opened (by cases m <;> rfl) deep points _

theorem Pinned.closeGroup {outer inner : Clause} (pinned : inner.Pinned)
    (inside : 0 < inner.depth) :
    (closeGroup outer { inner with depth := inner.depth - 1 }).1.Pinned := by
  obtain ⟨n, opened, deep, points⟩ := pinned
  refine Pinned.resolve (c := resume outer { inner with depth := inner.depth - 1 }) rfl
    (n := n) (m := n - 1) opened ?_ (Nat.sub_le_sub_right deep 1) (fun right => ?_) _
  · exact if_neg (by omega)
  · have level : inner.depth - 1 = n - 1 := right
    exact points (by omega)

/-- A state that has come of another stands as deep in groups or deeper. -/
structure Deepens (c c' : Clause) : Prop where
  depth : c.depth ≤ c'.depth
  pinned : c.Pinned → c'.Pinned

theorem deepens_evolution : Evolution Deepens where
  refl c := ⟨Nat.le_refl _, id⟩
  trans first second := ⟨first.depth.trans second.depth, second.pinned ∘ first.pinned⟩
  issue := by
    intro c op step issued
    obtain ⟨left, entries⟩ := c.entries_issued issued
    have level := sameLevel_evolution.issue issued
    exact ⟨level.depth.ge, fun pinned =>
      pinned.append entries (fun _ => rfl) nofun level.depth (failPoint_issued issued)⟩
  setSubject c call captured v :=
    have level := c.sameLevel_setSubject call.operation captured v
    ⟨level.depth.ge, fun pinned => pinned.append (c.entries_setSubject _ captured v)
      call.nest_operation (fun _ => ⟨nofun, nofun⟩) level.depth (setSubject_failPoint _ _ _ _)⟩
  restoreTo c v := ⟨Nat.le_refl _, fun ⟨n, opened, deep, points⟩ => ⟨n, opened, deep, points⟩⟩
  judge c m captured matched := ⟨(sameLevel_evolution.judge c m captured matched).depth.ge,
    fun pinned => pinned.judge m captured matched⟩
  abort c call role text captured := ⟨Nat.le_refl _, fun pinned =>
    pinned.append (c.entries_abort _ role text captured) call.nest_operation
      (fun _ => ⟨nofun, nofun⟩) rfl rfl⟩
  leaveGroup := by
    intro outer inner inside
    have deep : outer.depth + 1 ≤ inner.depth := inside.depth
    refine ⟨show outer.depth ≤ inner.depth - 1 by omega, fun pinned => ?_⟩
    -- One group more is open in the trace from now on.
    obtain ⟨n, opened, below, _⟩ := inside.pinned pinned.openGroup
    exact ⟨n, opened, show inner.depth - 1 ≤ n by omega,
      fun right => absurd (show inner.depth - 1 = n from right) (by omega)⟩
  closeGroup := by
    intro outer inner inside _
    have deep : outer.depth + 1 ≤ inner.depth := inside.depth
    have depth : (closeGroup outer { inner with depth := inner.depth - 1 }).1.depth =
      inner.depth - 1 := resolve_depth _ _ _
    exact ⟨by omega, fun pinned => (inside.pinned pinned.openGroup).closeGroup (by omega)⟩

end Clause

/-- Wherever code comes by from a new clause, the fail point is in line with the trace. -/
theorem Code.pinned_visits {code : Code} {w w' : World} {i : Nat} (visits : code.Visits w w')
    (pinned : (w.clause i).Pinned) : (w'.clause i).Pinned :=
  (Code.evolves_visits Clause.deepens_evolution
    (fun _ => ⟨Nat.le_succ _, Clause.Pinned.openGroup⟩) i visits).pinned pinned

/-! ## As long as groups are closed -/

namespace Clause

variable {c c' : Clause}

/-- The groups that are open in the trace are those the clause takes for open. -/
def Level (c : Clause) : Prop := openGroups c.entries = some c.depth

theorem Level.append {r : Record} (level : c.Level) (entries : c'.entries = c.entries ++ [r])
    (plain : ∀ n, r.operation.nest n = some n) (depth : c'.depth = c.depth) : c'.Level := by
  rw [Level, entries, openGroups_append level, plain, depth]

theorem Level.openGroup (level : c.Level) : c.openGroup.Level := openGroups_openGroup level

theorem Level.resolve {r : Record} (judged : r.operation.operator? = none) {n : Nat}
    (opened : openGroups c.entries = some n) (nested : r.operation.nest n = some c.depth)
    (v : Status) : Level ((c.add r).resolve c.result.trace.length v).1 := by
  rw [Level, openGroups_resolve judged opened nested, resolve_depth]
  rfl

theorem Level.closeGroup {outer inner : Clause} (level : inner.Level) (inside : 0 < inner.depth) :
    (closeGroup outer { inner with depth := inner.depth - 1 }).1.Level := by
  refine Level.resolve (c := resume outer { inner with depth := inner.depth - 1 }) rfl level ?_ _
  exact if_neg (by omega)

theorem level_closing : Closing fun c c' : Clause => c.Level → c'.Level where
  refl _ := id
  trans first second := second ∘ first
  issue := by
    intro c op step issued level
    obtain ⟨left, entries⟩ := c.entries_issued issued
    exact level.append entries (fun _ => rfl) (sameLevel_evolution.issue issued).depth
  setSubject c call captured v level := level.append (c.entries_setSubject _ captured v)
    call.nest_operation (c.sameLevel_setSubject _ captured v).depth
  restoreTo _ _ := id
  judge c m captured matched level :=
    Level.resolve (by cases m <;> rfl) level (by cases m <;> rfl) _
  abort c call role text captured level :=
    level.append (c.entries_abort _ role text captured) call.nest_operation rfl
  closeGroup := by
    intro outer inner inside evolved level
    have deep : inner.depth = outer.depth + 1 := (evolved _ sameLevel_evolution).depth
    exact (inside level.openGroup).closeGroup (by omega)

end Clause

namespace Code

theorem level_run {code : Code} {w : World} {i : Nat} (returns : code.GroupsReturn w i)
    (level : (w.clause i).Level) : ((code.run w).1.clause i).Level :=
  closes_run Clause.level_closing returns level

/-- As long as groups are closed, those that are open in the trace are those the clause takes for
    open, wherever code comes by. -/
theorem level_visits {code : Code} {w w' : World} {i : Nat} (visits : code.Visits w w')
    (returns : code.GroupsReturn w i) (level : (w.clause i).Level) : (w'.clause i).Level :=
  closes_visits Clause.level_closing (fun _ => Clause.Level.openGroup) visits returns level

end Code

open Clause

/-- As long as every group is closed, the groups that are open in the trace of a clause are those it
    counts, so that at the end of a run the records of groups are nested properly.  The fail point
    is then, wherever code comes by, the place of the first failure at the top of the chain since
    the last pass there, and there is none exactly if there is no such failure. -/
theorem failPoint_first_failure {code : Code} {w : World} {i : Nat} {o : Options}
    (fresh : w.clause i = { options := o }) (returns : code.GroupsReturn w i) :
    (∀ w', code.Visits w w' → let t := (w'.clause i).result
      openGroups t.trace = some (w'.clause i).depth ∧
      (∀ p, t.failPoint = some p ↔ IsLeast (failures t.trace) p) ∧
      (t.failPoint = none ↔ failures t.trace = ∅) ∧
      ∀ p, t.failPoint = some p → t.trace[p]?.bind (·.index) = some p) ∧
    openGroups ((code.run w).1.clause i).result.trace = some 0 := by
  have new : (w.clause i).Level ∧ (w.clause i).Pinned ∧ Linked (w.clause i).result.trace :=
    fresh ▸ ⟨rfl, pinned_new o, linked_nil⟩
  have opened (c : Clause) : openGroups c.result.trace = openGroups c.entries :=
    openGroups_congr c.map_mark_trace
  constructor
  · intro w' visits t
    have level : openGroups (w'.clause i).entries = _ := Code.level_visits visits returns new.1
    obtain ⟨n, counted, _, points⟩ := Code.pinned_visits visits new.2.1
    have right : (w'.clause i).depth = n := Option.some.inj (level.symm.trans counted)
    have points : Points t.failPoint (failures t.trace) :=
      failures_congr (w'.clause i).map_mark_trace ▸ points right
    refine ⟨(opened _).trans level, points.eq_some_iff, points.eq_none_iff, fun p pointed => ?_⟩
    have here := List.getElem?_eq_getElem (failures_before ((points.eq_some_iff p).mp pointed).1)
    rw [here]
    exact (linked_visits visits new.2.2 p _ here).index
  · have level : openGroups ((code.run w).1.clause i).entries = _ := Code.level_run returns new.1
    have depth := (code.evolves_run sameLevel_evolution i w).depth
    rw [opened, level, depth, fresh]

/-- A group that fails is one failure at the top, and what has failed inside it is none. -/
theorem failPoint_first_failure_group :
    let block : Value → Code := fun _ => Code.calls 0 [(.check .is, .code, fun _ => .give (.int 2))]
    let code := Code.calls 0 [(.that, .code, fun _ => .give (.int 1)),
      (.check .is, .code, fun _ => .give (.int 1)), (.logic .and, .code, block)]
    let t := ((code.run World.start).1.clause 0).result
    World.start.clause 0 = { options := .default } ∧ code.GroupsReturn World.start 0 ∧
      t.trace.map (·.operation) = [.that, .is, .logic .and, .blockStart, .is, .blockEnd] ∧
      t.failPoint = some 5 ∧ IsLeast (failures t.trace) 5 := by
  intro block code t
  have returns : code.GroupsReturn World.start 0 := by
    intro op inner next rescue w₁ v w₀ reached handed
    simp only [code, Code.calls] at reached
    cases reached with
    | inside _ reached => cases reached
    | raised called _ => cases called
    | returned called reached =>
      cases called
      cases reached with
      | inside _ reached => cases reached
      | raised called _ => cases called
      | returned called reached =>
        cases called
        cases reached with
        | here => rfl
        | raised called _ => cases called
        | returned called reached => cases reached
        | inside begun reached =>
          simp only [block, Code.calls] at reached
          cases reached with
          | inside _ reached | returned _ reached | raised _ reached => cases reached
  have spec := ((failPoint_first_failure (i := 0) rfl returns).1 _ (code.visits_run _)).2.1 5
  have pointed : t.failPoint = some 5 := by decide
  exact ⟨rfl, returns, by decide, pointed, spec.mp pointed⟩

end Assay
