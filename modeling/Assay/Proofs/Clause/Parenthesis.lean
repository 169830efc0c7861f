import Assay.Proofs.Clause.Frame
import Assay.Proofs.Clause.Parallel

/-! # A group is a parenthesis

What the block of a group records, and the verdict it comes to, do not depend on anything that
stands before the group but the subject.  Once a group is closed the chain goes on as it would
after a matcher that has come to the verdict of the group.
-/

namespace Assay

open Clause World

/-- Two worlds that are the same but for the clause of a number. -/
abbrev World.ApartFrom (i : Nat) (w w' : World) : Prop :=
  w.Abreast Eq (fun j c c' => j ≠ i → c' = c) w'

/-- Two outcomes that are the same but for the clause of a number. -/
abbrev Outcome.ApartFrom {α : Type} (i : Nat) (o o' : Outcome α) : Prop :=
  o.Abreast Eq (fun j c c' => j ≠ i → c' = c) o'

/-- The record that starts a group. -/
def Record.start : Record := (Record.logic .blockStart (some .pass)).unlinked

/-- The offset between two traces in which groups are opened at different places and depths. -/
def Offset.opened (n n' depth depth' : Nat) : Offset where
  common := 0
  first := n
  second := n'
  outer := depth + 1
  outer' := depth' + 1
  before := Nat.zero_le n
  before' := Nat.zero_le n'
  level := by simp

/-- The offset between two traces of which one has more records before the turn. -/
def Offset.between (n k : Nat) : Offset where
  common := n
  first := n + k
  second := n
  before := Nat.le_add_right n k
  before' := Nat.le_refl n
  level := Iff.rfl

namespace Clause

variable {c c' : Clause}

/-- Opened groups start side by side, whatever stands before them. -/
theorem parallel_openGroup (subject : c'.subject = c.subject) (options : c'.options = c.options) :
    Parallel (.opened c.entries.length c'.entries.length c.depth c'.depth) c.openGroup
      c'.openGroup where
  options := options
  subject := subject
  restore := rfl
  status := rfl
  depth := ⟨0, rfl, rfl⟩
  active := .none
  deferred := .none
  records := by
    rw [entries_openGroup, entries_openGroup]
    refine ⟨⟨0, by simp [Offset.opened], by simp [Offset.opened]⟩, fun {i j} meets apart => ?_, ?_⟩
    · cases meets with
      | common below => exact absurd below (Nat.not_lt_zero _)
      | later k =>
          have beyond : 0 < k := Nat.pos_of_ne_zero fun none => apart (by simp [none])
          rw [List.getElem?_eq_none (by simp [Offset.opened]; omega),
            List.getElem?_eq_none (by simp [Offset.opened]; omega)]
    · exact ⟨_, _, List.getElem?_concat_length, List.getElem?_concat_length, rfl, rfl, rfl, rfl,
        rfl⟩
  failPoint top := absurd top (Nat.succ_ne_zero _)

/-- What the block of a group records comes after the records that were there. -/
theorem entries_ofGroup {inner : Clause} (evolved : Evolved c.openGroup inner) :
    ∃ inside, inner.entries = c.entries ++ Record.start :: inside := by
  have opened : c.openGroup.entries = c.entries ++ [Record.start] := c.entries_openGroup
  have length : c.openGroup.entries.length = c.entries.length + 1 := by rw [opened]; simp
  have above : Above (c.entries.length + 1) c.openGroup :=
    ⟨Nat.le_of_eq length.symm, by simp [openGroup], by simp [openGroup]⟩
  have kept := evolved _ (keeps_evolution (c.entries.length + 1)) above
  refine ⟨inner.entries.drop (c.entries.length + 1), ?_⟩
  have start : inner.entries.take (c.entries.length + 1) = c.entries ++ [Record.start] := by
    rw [← opened]
    apply List.ext_getElem?
    intro j
    by_cases below : j < c.entries.length + 1
    · rw [List.getElem?_take_of_lt below, kept.kept j below]
    · rw [List.getElem?_take_eq_none (by omega), List.getElem?_eq_none (by omega)]
  rw [← List.singleton_append, ← List.append_assoc, ← start, List.take_append_drop]

/-- Groups that are side by side have recorded the same. -/
theorem inside_eq {inner inner' : Clause} {inside inside' : List Record} {depth depth' : Nat}
    (parallel : Parallel (.opened c.entries.length c'.entries.length depth depth') inner inner')
    (entries : inner.entries = c.entries ++ Record.start :: inside)
    (entries' : inner'.entries = c'.entries ++ Record.start :: inside') : inside' = inside := by
  apply List.ext_getElem?
  intro j
  have apart : c.entries.length + (j + 1) ≠ c.entries.length := by omega
  have same : inner'.entries[c'.entries.length + (j + 1)]? =
      inner.entries[c.entries.length + (j + 1)]? := parallel.records.same (.later (j + 1)) apart
  rw [entries, entries', List.getElem?_append_right (by omega),
    List.getElem?_append_right (by omega)] at same
  simpa using same

/-- From the start of a group on, records know their places. -/
theorem indexed_ofGroup {inner : Clause} (evolved : Evolved c.openGroup inner) :
    Indexed c.result.trace.length inner := by
  have vacuous : Indexed c.result.trace.length c := fun _ above below => absurd below (by omega)
  exact evolved _ (indexed_evolution _) (.append (appends_openGroup _) vacuous)

/-! ## Records in between -/

/-- A chain that has come to have more records, and points at none of them. -/
structure Continues (more : List Record) (c x : Clause) : Prop where
  options : x.options = c.options
  subject : x.subject = c.subject
  restore : x.restore = c.restore
  depth : x.depth = c.depth
  active : x.active = c.active
  deferred : x.deferred = c.deferred
  failPoint : x.result.failPoint = c.result.failPoint
  entries : x.entries = c.entries ++ more

/-- Two traces of which one has records in between before the record of a verdict. -/
theorem beside_between (es more : List Record) {r r' : Record} (agrees : r.Agrees r') :
    Beside (.between es.length more.length) (es ++ more ++ [r]) (es ++ [r']) where
  length := ⟨0, by simp [Offset.between, Nat.add_assoc], by simp [Offset.between]⟩
  same := by
    intro i j meets apart
    cases meets with
    | common below =>
        rw [List.getElem?_append_left below, List.append_assoc, List.getElem?_append_left below]
    | later k =>
        have beyond : 0 < k := Nat.pos_of_ne_zero fun none => apart (by simp [none])
        rw [List.getElem?_eq_none (by simp [Offset.between]; omega),
          List.getElem?_eq_none (by simp [Offset.between]; omega)]
  turn := by
    have first : (es ++ more ++ [r])[es.length + more.length]? = some r := by
      rw [← List.length_append, List.getElem?_concat_length]
    exact ⟨r, r', first, List.getElem?_concat_length, agrees⟩

/-- Records after those that are filled in make no difference. -/
theorem settleSlot_append_list {records : List Record} (more : List Record)
    (slot : Option (Nat × Operator)) (before : ∀ i op, slot = some (i, op) → i < records.length)
    (v : Status) : settleSlot (records ++ more) slot v =
      ((settleSlot records slot v).1 ++ more, (settleSlot records slot v).2) := by
  induction more generalizing records with
  | nil => simp
  | cons r rest ih =>
      have before' (i : Nat) (op : Operator) (here : slot = some (i, op)) :
          i < (records ++ [r]).length := by
        have := before i op here
        simp only [List.length_append]
        omega
      rw [List.append_cons, ih before', settleSlot_append before]
      simp

namespace Continues

variable {more : List Record} {x : Clause} (continues : Continues more c x) (placed : c.Placed)

include continues

theorem getElem?_entries {i : Nat} (before : i < c.result.trace.length) :
    x.entries[i]? = c.entries[i]? := by
  rw [continues.entries, List.getElem?_append_left (by simpa using before)]

include placed

theorem waiting? : x.waiting? = c.waiting? := by
  rw [waiting?_eq, waiting?_eq, continues.active]
  cases active : c.active with
  | none => rfl
  | some a =>
      rw [Option.bind_some, Option.bind_some,
        continues.getElem?_entries (placed.active a active)]

theorem deferred? : x.deferred? = c.deferred? := by
  rw [Clause.deferred?, Clause.deferred?, continues.deferred]
  cases deferred : c.deferred with
  | none => rfl
  | some d =>
      rw [Option.bind_some, Option.bind_some, operatorAt?_eq, operatorAt?_eq,
        continues.getElem?_entries (placed.deferred d deferred)]

theorem inverts : x.inverts = c.inverts := by
  rw [Clause.inverts, Clause.inverts, continues.waiting? placed]

theorem settled (v : Status) : x.settled v = ((c.settled v).1 ++ more, (c.settled v).2) := by
  have waits (a : Nat) (op : Operator) (waiting : c.waiting? = some (a, op)) :
      a < c.entries.length := by
    simpa using placed.active a (c.waiting?_eq_some.mp waiting).1
  have pushed (d : Nat) (op : Operator) (deferred : c.deferred? = some (d, op)) :
      d < c.entries.length := by
    simpa using placed.deferred d (c.deferred?_eq_some.mp deferred).1
  unfold Clause.settled
  rw [continues.waiting? placed, continues.deferred? placed, continues.entries]
  cases waiting : c.waiting? with
  | none => rfl
  | some p =>
      obtain ⟨a, op⟩ := p
      have first : settleAt (c.entries ++ more) a op v =
          ((settleAt c.entries a op v).1 ++ more, (settleAt c.entries a op v).2) :=
        settleSlot_append_list more (some (a, op))
          (fun i _ here => waits i _ (waiting.trans here)) v
      dsimp only
      rw [first]
      exact settleSlot_append_list more _ (by simpa using pushed) _

/-- One verdict, recorded in either of two chains of which one has records in between, makes them
    go on side by side. -/
theorem parallel (r r' : Record) (judged : r.operation.operator? = none)
    (judged' : r'.operation.operator? = none) (invert : r'.invert = r.invert) (v : Status) :
    Parallel (.between c.result.trace.length more.length)
      ((x.add r).resolve x.result.trace.length v).1
      ((c.add r').resolve c.result.trace.length v).1 := by
  obtain ⟨status, active, deferred, entries⟩ := x.resolve_add judged v
  obtain ⟨status', active', deferred', entries'⟩ := c.resolve_add judged' v
  have length : x.result.trace.length = c.result.trace.length + more.length := by
    rw [← x.length_entries, continues.entries]
    simp
  have settled := continues.settled placed v
  rw [settled] at status entries
  have same := status'.trans status.symm
  exact {
    options := by
      rw [resolve_options, resolve_options]
      exact continues.options.symm
    subject := by
      rw [resolve_subject, resolve_subject]
      show c.restore.or c.subject = x.restore.or x.subject
      rw [continues.restore, continues.subject]
    restore := by rw [resolve_restore, resolve_restore]
    status := same
    depth := by
      rw [resolve_depth, resolve_depth]
      exact ⟨c.depth, continues.depth.trans (Nat.zero_add _).symm, (Nat.zero_add _).symm⟩
    active := by
      rw [active, active', length]
      exact .some (.later 0)
    deferred := by
      rw [deferred, deferred', continues.waiting? placed, continues.deferred? placed,
        continues.deferred]
      split
      · exact .none
      · exact Offset.places placed.deferred
    records := by
      have agrees : Record.Agrees
          { r.unlinked with right := v, status := (c.settled v).2, invert := x.inverts || r.invert }
          { r'.unlinked with right := v, status := (c.settled v).2,
                             invert := c.inverts || r'.invert } :=
        ⟨judged, judged', rfl, rfl, by rw [continues.inverts placed, invert]⟩
      rw [entries, entries']
      simpa using beside_between (c.settled v).1 more agrees
    failPoint := fun _ => by
      have points : Option.Rel (Offset.between c.result.trace.length more.length).Meets _ _ :=
        Offset.places placed.failPoint
      have depth : (x.add r).depth = (c.add r').depth := continues.depth
      rw [resolve_failPoint, resolve_failPoint, depth, same]
      show Option.Rel _ (if _ then Clause.failPointAfter x.result.failPoint _ _ else
        x.result.failPoint) _
      rw [continues.failPoint, length]
      split
      · exact Offset.failPointAfter points (.later 0) _
      · exact points }

end Continues

/-! ## Instead of a matcher -/

/-- The chain around a group, once the block has come to its end, has the records of the group in
    between. -/
theorem continues_resume {inner : Clause} {inside : List Record}
    (evolved : Evolved c.openGroup inner) (entries : inner.entries = c.entries ++ inside)
    (subject : inner.subject = c.subject) :
    Continues inside c (resume c { inner with depth := inner.depth - 1 }) := by
  have level := evolved SameLevel sameLevel_evolution
  have depth : inner.depth = c.depth + 1 := level.depth
  exact {
    options := level.options
    subject := subject
    restore := rfl
    depth := by
      show inner.depth - 1 = c.depth
      omega
    active := rfl
    deferred := rfl
    failPoint := level.failPoint (Nat.succ_pos _)
    entries := entries }

theorem parallel_closeGroup {inner : Clause} {inside : List Record}
    (evolved : Evolved c.openGroup inner) (entries : inner.entries = c.entries ++ inside)
    (subject : inner.subject = c.subject) (placed : c.Placed) {matched : Bool}
    (verdict : inner.result.status = .ofMatch matched) (m : Matcher) (s : Option Snapshot) :
    Parallel (.between c.result.trace.length inside.length)
      (closeGroup c { inner with depth := inner.depth - 1 }).1 (c.judge m s matched).1 := by
  have continues := continues_resume evolved entries subject
  have judged : m.operation.operator? = none := by cases m <;> rfl
  unfold closeGroup judge
  dsimp only
  rw [verdict]
  exact continues.parallel placed (.logic .blockEnd (some c.result.status))
    { Record.matcher m.operation with captured := s } rfl judged rfl _

/-- Where a place of a trace is found once some records have been put in at a place. -/
def stretch (n k j : Nat) : Nat := if j < n then j else j + k

theorem meets_between {n k i j : Nat} (meets : (Offset.between n k).Meets i j) :
    i = stretch n k j := by
  cases meets with
  | common below => exact (if_pos below).symm
  | later l =>
      have beyond : ¬ n + l < n := Nat.not_lt_of_le (Nat.le_add_right n l)
      simp only [stretch, Offset.between, beyond, if_false]
      omega

theorem rel_between {n k : Nat} {p p' : Option Nat}
    (places : Option.Rel (Offset.between n k).Meets p p') : p = p'.map (stretch n k) := by
  cases places with
  | none => rfl
  | some meets => rw [meets_between meets, Option.map_some]

/-- A chain has come to the same as another one, in which at some place a matcher has given the
    verdict of a group: what it records, what waits and where its fail point is. -/
structure Brackets (n k : Nat) (c c' : Clause) : Prop where
  status : c.result.status = c'.result.status
  subject : c.subject = c'.subject
  restore : c.restore = c'.restore
  depth : c.depth = c'.depth
  active : c.active = c'.active.map (stretch n k)
  deferred : c.deferred = c'.deferred.map (stretch n k)
  failPoint : c.result.failPoint = c'.result.failPoint.map (stretch n k)
  before : c.entries.take n = c'.entries.take n
  verdict : ∃ r r', c.entries[n + k]? = some r ∧ c'.entries[n]? = some r' ∧ r.Agrees r'
  after : c.entries.drop (n + k + 1) = c'.entries.drop (n + 1)

theorem brackets_of_parallel {n k : Nat} (parallel : Parallel (.between n k) c c') :
    Brackets n k c c' where
  status := parallel.status.symm
  subject := parallel.subject.symm
  restore := parallel.restore.symm
  depth := by
    obtain ⟨d, first, second⟩ := parallel.depth
    exact first.trans second.symm
  active := rel_between parallel.active
  deferred := rel_between parallel.deferred
  failPoint := rel_between (parallel.failPoint rfl)
  before := by
    apply List.ext_getElem?
    intro j
    by_cases below : j < n
    · have apart : j ≠ n + k := by omega
      rw [List.getElem?_take_of_lt below, List.getElem?_take_of_lt below]
      exact (parallel.records.same (.common below) apart).symm
    · rw [List.getElem?_take_eq_none (by omega), List.getElem?_take_eq_none (by omega)]
  verdict := parallel.records.turn
  after := by
    apply List.ext_getElem?
    intro j
    have apart : n + k + (1 + j) ≠ n + k := by omega
    rw [List.getElem?_drop, List.getElem?_drop, Nat.add_assoc (n + k), Nat.add_assoc n 1]
    exact (parallel.records.same (.later (1 + j)) apart).symm

end Clause

/-! ## Worlds that differ in a clause -/

namespace World

variable {i : Nat} {w w' : World} {o : Offset}

theorem apartFrom_setClause (w : World) (i : Nat) (c c' : Clause) :
    (w.setClause i c).ApartFrom i (w.setClause i c') :=
  have same : w.ApartFrom i w := ⟨rfl, rfl, rfl, fun _ _ => rfl⟩
  same.setClause fun away => absurd rfl away

/-- A clause that has been entered can be put back as another. -/
theorem apartFrom_update (w : World) (i : Nat) (step : Clause × List String) (c : Clause) :
    (w.update i step).ApartFrom i ((w.update i step).setClause i c) where
  memory := rfl
  facets := rfl
  fresh := by simp only [World.update, World.setClause, clauses_debug, Entries.insert_insert,
    Entries.fresh_insert]
  clauses j away := clause_setClause_of_ne (Ne.symm away) _ _

/-- Worlds that differ in one clause, whose states there are parallel. -/
theorem abreast_parallel_iff : Abreast Eq (fun j c c' => if j = i then Parallel o c c' else c' = c)
    w w' ↔ w.ApartFrom i w' ∧ Parallel o (w.clause i) (w'.clause i) := by
  constructor
  · intro abreast
    refine ⟨⟨abreast.memory, abreast.facets, abreast.fresh, fun j away => ?_⟩, ?_⟩
    · simpa only [away, if_false] using abreast.clauses j
    · simpa only [if_true] using abreast.clauses i
  · intro ⟨apart, parallel⟩
    refine ⟨apart.memory, apart.facets, apart.fresh, fun j => ?_⟩
    by_cases here : j = i
    · simpa only [here, if_true] using parallel
    · simpa only [here, if_false] using apart.clauses j here

/-- Whatever code does, it does in the same way in both worlds. -/
theorem ApartFrom.run (apart : w.ApartFrom i w') (parallel : Parallel o (w.clause i) (w'.clause i))
    (code : Code) :
    Outcome.ApartFrom i (code.run w) (code.run w') ∧ code.history w' = code.history w ∧
      Parallel o ((code.run w).1.clause i) ((code.run w').1.clause i) := by
  have steps (j : Nat) : Paired Eq (fun _ _ => True)
      (fun c c' => if j = i then Parallel o c c' else c' = c) := by
    by_cases here : j = i
    · simpa only [here, if_true] using parallel_paired o _
    · simpa only [here, if_false] using paired_same _
  have lock : Lockstep Eq (fun _ _ => True)
      fun j c c' => if j = i then Parallel o c c' else c' = c := ⟨oneHeap_eq, steps⟩
  have ran := lock.run code.alike_eq (abreast_parallel_iff.mpr ⟨apart, parallel⟩) fun _ _ _ =>
    trivial
  have ended := abreast_parallel_iff.mp ran.1.world
  exact ⟨⟨ended.1, ran.1.result⟩, ran.2, ended.2⟩

/-- An exception ends a test in the same way in both worlds. -/
theorem ApartFrom.abort {α : Type} (apart : w.ApartFrom i w')
    (options : (w'.clause i).options = (w.clause i).options) (op : Operation) (role : Role)
    (a : Address) :
    Outcome.ApartFrom i (w.abort i op role a : Outcome α) (w'.abort i op role a) := by
  have heap := oneHeap_eq.heap_eq apart
  have tracing : (w'.clause i).tracing = (w.clause i).tracing := by
    rw [Clause.tracing, Clause.tracing, options]
  have remember : (w.clause i).remember w.memory (.ref a) =
      (w'.clause i).remember w'.memory (.ref a) := by
    rw [Clause.remember, Clause.remember, tracing, apart.memory]
  have picture : (w'.clause i).picture w'.heap (.ref a) =
      (w.clause i).picture w.heap (.ref a) := by
    rw [Clause.picture, Clause.picture, tracing, heap]
  refine oneHeap_eq.abort apart ⟨remember, apart.facets, apart.fresh, apart.clauses⟩ op role ?_
  rw [picture]
  cases (w.clause i).picture w.heap (.ref a) with
  | error f => exact .inl ⟨f, rfl, rfl⟩
  | ok s => exact .inr ⟨s, s, rfl, rfl, fun _ away => absurd rfl away⟩

/-- A group ends in the same way in both worlds if its block has. -/
theorem apartFrom_endGroup {o o' : Outcome Value} (c c' : Clause) (owner : Operator)
    (ran : o.ApartFrom i o')
    (options : (o'.1.clause i).options = (o.1.clause i).options)
    (status : (o'.1.clause i).result.status = (o.1.clause i).result.status) :
    Outcome.ApartFrom i (endGroup i owner c o) (endGroup i owner c' o') := by
  obtain ⟨w, result⟩ := o
  obtain ⟨w', result'⟩ := o'
  obtain ⟨apart, same⟩ := ran
  cases same
  let left (w : World) : Clause := { w.clause i with depth := (w.clause i).depth - 1 }
  have away {c c' : Clause} : i ≠ i → c' = c := fun away => absurd rfl away
  have left : (w.setClause i (left w)).ApartFrom i (w'.setClause i (left w')) :=
    apart.setClause away
  cases result with
  | error r =>
      simp only [endGroup]
      by_cases passes : r.leavesGroups
      · simp only [passes, if_true]
        exact ⟨left, rfl⟩
      · simp only [passes, Bool.false_eq_true, if_false]
        exact ApartFrom.abort left (by simpa using options) _ _ _
  | ok x =>
      simp only [endGroup, status]
      by_cases waits : (w.clause i).result.status = .notImplemented
      · simp only [waits, if_true]
        exact oneHeap_eq.misuse left _
      · simp only [waits, if_false]
        exact ⟨left.update away, rfl⟩

/-- What the block of a group leads to, given the state of the clause before it. -/
def inGroup (w : World) (i : Nat) (c : Clause) (block : Code) : Outcome Value :=
  block.run (w.setClause i c.openGroup)

/-- What a group leads to, given the state of the clause before it. -/
def grouped (w : World) (i : Nat) (c : Clause) (owner : Operator) (block : Code) : Outcome Unit :=
  (w.setClause i c).group i owner (.code fun _ => block.run)

theorem grouped_eq (w : World) (i : Nat) (c : Clause) (owner : Operator) (block : Code) :
    w.grouped i c owner block = endGroup i owner c (w.inGroup i c block) := by
  have once (c' : Clause) : (w.setClause i c).setClause i c' = w.setClause i c' := by
    simp only [World.setClause, Entries.insert_insert]
  rw [grouped, group_code, clause_setClause_self, once, inGroup]

theorem evolved_inGroup (w : World) (i : Nat) (c : Clause) (block : Code) :
    Evolved c.openGroup ((w.inGroup i c block).1.clause i) := by
  have ran := block.evolves_run evolved_evolution i (w.setClause i c.openGroup)
  simpa [Evolves, inGroup] using ran

end World

open World

/-- A block records the same and comes to the same verdict in any two groups that are opened over
    one subject and under the same options. -/
theorem inGroup_independent (w : World) (i : Nat) {c c' : Clause} (subject : c'.subject = c.subject)
    (options : c'.options = c.options) (owner : Operator) (block : Code) :
    let o := w.inGroup i c block
    let o' := w.inGroup i c' block
    o.ApartFrom i o' ∧ (w.grouped i c owner block).ApartFrom i (w.grouped i c' owner block) ∧
      (o'.1.clause i).result.status = (o.1.clause i).result.status ∧
      (o'.1.clause i).subject = (o.1.clause i).subject ∧
      ∃ inside, (o.1.clause i).entries = c.entries ++ Record.start :: inside ∧
        (o'.1.clause i).entries = c'.entries ++ Record.start :: inside := by
  intro o o'
  have opened : Parallel (.opened c.entries.length c'.entries.length c.depth c'.depth)
      ((w.setClause i c.openGroup).clause i) ((w.setClause i c'.openGroup).clause i) := by
    simpa using parallel_openGroup subject options
  have ran : o.ApartFrom i o' ∧ _ ∧ Parallel _ _ _ :=
    (apartFrom_setClause w i _ _).run opened block
  obtain ⟨ended, _, parallel⟩ := ran
  have grouped := apartFrom_endGroup c c' owner ended parallel.options
    parallel.status
  rw [← grouped_eq, ← grouped_eq] at grouped
  obtain ⟨inside, entries⟩ := entries_ofGroup (evolved_inGroup w i c block)
  obtain ⟨inside', entries'⟩ := entries_ofGroup (evolved_inGroup w i c' block)
  have same : inside' = inside := inside_eq parallel entries entries'
  exact ⟨ended, grouped, parallel.status, parallel.subject, inside, entries, same ▸ entries'⟩

/-- After a group that leaves the subject as it was the chain goes on as after a matcher that has
    come to the verdict of the group. -/
theorem grouped_as_matcher (w : World) (i : Nat) {c : Clause} (placed : c.Placed) (owner : Operator)
    (block : Code) {v : Value} {matched : Bool}
    (returned : (w.inGroup i c block).2 = .ok v)
    (verdict : ((w.inGroup i c block).1.clause i).result.status = .ofMatch matched)
    (subject : ((w.inGroup i c block).1.clause i).subject = c.subject) :
    let g := w.grouped i c owner block
    g.2 = .ok () ∧ ∀ m s next,
      let w' := g.1.setClause i (c.judge m s matched).1
      Outcome.ApartFrom i (Code.run next g.1) (next.run w') ∧
        next.history w' = next.history g.1 ∧
        ∃ k, (g.1.clause i).result.trace.length = c.result.trace.length + k + 1 ∧
          Brackets c.result.trace.length k ((next.run g.1).1.clause i)
            ((next.run w').1.clause i) := by
  intro g
  let inner := (w.inGroup i c block).1.clause i
  have evolved : Evolved c.openGroup inner := evolved_inGroup w i c block
  obtain ⟨inside, entries⟩ := entries_ofGroup evolved
  have resolved : inner.result.status ≠ .notImplemented := by
    rw [verdict]
    cases matched <;> decide
  have ended : w.inGroup i c block = ((w.inGroup i c block).1, .ok v) := Prod.ext rfl returned
  have closed : g = (((w.inGroup i c block).1.setClause i
      { inner with depth := inner.depth - 1 }).update i
        (closeGroup c { inner with depth := inner.depth - 1 }), .ok ()) := by
    rw [show g = _ from grouped_eq w i c owner block, ended]
    exact if_neg resolved
  refine ⟨by rw [closed], fun m s next => ?_⟩
  have found : g.1.clause i = (closeGroup c { inner with depth := inner.depth - 1 }).1 := by
    rw [closed]
    exact clause_update_self _ _ _
  have parallel := parallel_closeGroup evolved entries subject placed verdict m s
  rw [← found] at parallel
  have apart : g.1.ApartFrom i (g.1.setClause i (c.judge m s matched).1) := by
    rw [closed]
    exact apartFrom_update _ _ _ _
  obtain ⟨ran, history, beside⟩ := apart.run (by simpa using parallel) next
  refine ⟨ran, history, inside.length + 1, ?_, brackets_of_parallel beside⟩
  rw [found, closeGroup, length_resolve, length_add, ← length_entries]
  show inner.entries.length + 1 = _
  rw [entries]
  simp [Nat.add_assoc]

/-- A group is a parenthesis of its own: its block records the same, and comes to the same verdict,
    after whatever state of the clause, as long as the subject and the options are the same.  Once
    the block has come to a verdict and has left the subject as it was, the chain goes on as if a
    matcher had given that verdict. -/
theorem group_parenthesis (w : World) (i : Nat) (c : Clause) (owner : Operator) (block : Code) :
    (∀ c' : Clause, c'.subject = c.subject → c'.options = c.options →
      let o := w.inGroup i c block
      let o' := w.inGroup i c' block
      o.ApartFrom i o' ∧ (w.grouped i c owner block).ApartFrom i (w.grouped i c' owner block) ∧
        (o'.1.clause i).result.status = (o.1.clause i).result.status ∧
        (o'.1.clause i).subject = (o.1.clause i).subject ∧
        (∃ inside, (o.1.clause i).entries = c.entries ++ Record.start :: inside ∧
          (o'.1.clause i).entries = c'.entries ++ Record.start :: inside) ∧
        Indexed c.result.trace.length (o.1.clause i) ∧
        Indexed c'.result.trace.length (o'.1.clause i)) ∧
    (c.Placed → ∀ (v : Value) (matched : Bool),
      (w.inGroup i c block).2 = .ok v →
      ((w.inGroup i c block).1.clause i).result.status = .ofMatch matched →
      ((w.inGroup i c block).1.clause i).subject = c.subject →
      let g := w.grouped i c owner block
      g.2 = .ok () ∧ ∀ m s next,
        let w' := g.1.setClause i (c.judge m s matched).1
        Outcome.ApartFrom i (Code.run next g.1) (next.run w') ∧
          next.history w' = next.history g.1 ∧
          ∃ k, (g.1.clause i).result.trace.length = c.result.trace.length + k + 1 ∧
            Brackets c.result.trace.length k ((next.run g.1).1.clause i)
              ((next.run w').1.clause i)) := by
  constructor
  · intro c' subject options o o'
    obtain ⟨ended, grouped, status, same, recorded⟩ :=
      inGroup_independent w i subject options owner block
    exact ⟨ended, grouped, status, same, recorded, indexed_ofGroup (evolved_inGroup w i c block),
      indexed_ofGroup (evolved_inGroup w i c' block)⟩
  · intro placed v matched returned verdict subject
    exact grouped_as_matcher w i placed owner block returned verdict subject

theorem group_parenthesis_not_is :
    let block := Code.calls 0
      [(.logic .not, .absent, fun _ => .give .null), (.check .is, .code, fun _ => .give (.int 1))]
    let c : Clause := { subject := some (.int 1), result := { status := .pass } }
    let c' : Clause :=
      { subject := some (.int 1), restore := some .null, depth := 2
        result := { status := .fail, trace := [Record.setter .that] } }
    let o := World.start.inGroup 0 c block
    let g := World.start.grouped 0 c .or block
    (c'.subject = c.subject ∧ c'.options = c.options ∧
      o.ApartFrom 0 (World.start.inGroup 0 c' block)) ∧
    c.Placed ∧ o.2 = .ok .null ∧ (o.1.clause 0).result.status = .ofMatch false ∧
      (o.1.clause 0).subject = c.subject ∧ g.2 = .ok () ∧
      Outcome.ApartFrom 0 (block.run g.1)
        (block.run (g.1.setClause 0 (c.judge .is none false).1)) := by
  intro block c c' o g
  have placed : c.Placed := ⟨by simp [c], by simp [c], by simp [c]⟩
  have parenthesis := group_parenthesis World.start 0 c .or block
  have independent := parenthesis.1 c' rfl rfl
  have closed := parenthesis.2 placed .null false rfl (by decide +kernel) (by decide +kernel)
  exact ⟨⟨rfl, rfl, independent.1⟩, placed, rfl, by decide +kernel, by decide +kernel, closed.1,
    (closed.2 .is none block).1⟩

end Assay
