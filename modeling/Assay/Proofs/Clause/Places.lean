import Assay.Proofs.Clause.Succession
import Assay.Proofs.Clause.Verdict

/-! # Where things stand in a trace

A clause points into its trace: at what stands to the left of the next operator, at the operator
that a `not` has deferred, and at the fail point.  Records know their own places.  Whatever code
does, all of these are places that the trace has; in a group neither the fail point nor the number
of open groups changes.
-/

namespace Assay

/-- What a record says apart from what verdicts fill in. -/
def Record.unjudged (r : Record) : Record :=
  { r with right := .notImplemented, status := .notImplemented, invert := false }

/-- What a record says for good: all but what verdicts fill in, and its links. -/
def Record.lasting (r : Record) : Record :=
  { r with right := .notImplemented, status := .notImplemented, invert := false, previous := none,
           next := none }

/-- What a record says for good once it is told its place. -/
def Record.entered (r : Record) (i : Nat) : Record := { r with index := some i }.lasting

namespace Clause

variable (c : Clause)

/-- The records of a clause apart from what verdicts fill in. -/
def unjudged : List Record := c.result.trace.map Record.unjudged

/-- What the records of a clause say for good. -/
def lasting : List Record := c.result.trace.map Record.lasting

theorem map_lasting_unjudged : c.unjudged.map Record.lasting = c.lasting := by
  rw [unjudged, List.map_map]
  rfl

/-- The places that the records of a clause take themselves to be at. -/
def indices : List (Option Nat) := c.result.trace.map (·.index)

@[simp] theorem length_lasting : c.lasting.length = c.result.trace.length := by simp [lasting]

theorem map_index_lasting : c.lasting.map (·.index) = c.indices := by
  rw [lasting, List.map_map]
  rfl

theorem length_add (r : Record) : (c.add r).result.trace.length = c.result.trace.length + 1 := by
  simp [add, TestResult.add]

/-- A record has been added, and apart from that only verdicts have been filled in. -/
def Appends (c : Clause) (r : Record) (c' : Clause) : Prop :=
  c'.unjudged = (c.add r).unjudged

theorem lasting_add (r : Record) :
    (c.add r).lasting = c.lasting ++ [r.entered c.result.trace.length] := by
  have linked : (c.result.trace.modify (c.result.trace.length - 1) fun last =>
      { last with next := some c.result.trace.length }).map Record.lasting = c.lasting :=
    map_modify_same _ _ fun _ => rfl
  simp only [lasting, add, TestResult.add, List.map_append, List.map_cons,
    List.map_nil] at linked ⊢
  rw [linked]
  rfl

theorem Appends.lasting {c c' : Clause} {r : Record} (appends : Appends c r c') :
    c'.lasting = c.lasting ++ [r.entered c.result.trace.length] := by
  rw [← map_lasting_unjudged, appends, map_lasting_unjudged, lasting_add]

/-! ## What a verdict leaves alone -/

/-- Nothing but records has been filled in, and no operator been pushed aside. -/
structure Filled (c c' : Clause) : Prop where
  options : c'.options = c.options
  subject : c'.subject = c.subject
  restore : c'.restore = c.restore
  depth : c'.depth = c.depth
  failPoint : c'.result.failPoint = c.result.failPoint
  unjudged : c'.unjudged = c.unjudged

theorem Filled.trans {a b c : Clause} (first : Filled a b) (second : Filled b c) : Filled a c where
  options := second.options.trans first.options
  subject := second.subject.trans first.subject
  restore := second.restore.trans first.restore
  depth := second.depth.trans first.depth
  failPoint := second.failPoint.trans first.failPoint
  unjudged := second.unjudged.trans first.unjudged

theorem filled_modify {f : Record → Record} (i : Nat) (same : ∀ r, (f r).unjudged = r.unjudged) :
    Filled c (c.modify i f) :=
  ⟨rfl, rfl, rfl, rfl, rfl, map_modify_same _ _ same⟩

theorem filled_settle (i : Nat) (op : Operator) (v : Status) : Filled c (c.settle i op v).1 :=
  c.filled_modify i fun _ => rfl

theorem filled_settleDeferred (v : Status) : Filled c (c.settleDeferred v).1 := by
  rw [settleDeferred_eq]
  split
  · exact ⟨rfl, rfl, rfl, rfl, rfl, rfl⟩
  · rename_i d op _
    obtain ⟨options, subject, restore, depth, failPoint, unjudged⟩ := c.filled_settle d op v
    exact ⟨options, subject, restore, depth, failPoint, unjudged⟩

/-- A verdict fills in records, and then it is the verdict of the chain. -/
theorem resolve_conclude (i : Nat) (v : Status) :
    ∃ c₁ s, (c.resolve i v).1 = (Clause.conclude c₁ i s).1 ∧ Filled c c₁ := by
  have found : Filled c (c.modify i fun r => { r with right := v }) :=
    c.filled_modify i fun _ => rfl
  unfold resolve
  dsimp only
  split
  · exact ⟨_, _, rfl, found⟩
  · rename_i a op _
    have settled := (found.trans (filled_settle _ a op v)).trans (filled_settleDeferred _
      ((c.modify i fun r => { r with right := v }).settle a op v).2.1)
    split
    · exact ⟨_, _, rfl, settled.trans (filled_modify _ i fun _ => rfl)⟩
    · exact ⟨_, _, rfl, settled⟩

@[simp] theorem conclude_options (i : Nat) (s : Status) :
    (c.conclude i s).1.options = c.options := by
  unfold conclude
  dsimp only
  split <;> split <;> rfl

@[simp] theorem conclude_depth (i : Nat) (s : Status) : (c.conclude i s).1.depth = c.depth := by
  unfold conclude
  dsimp only
  split <;> split <;> rfl

@[simp] theorem conclude_unjudged (i : Nat) (s : Status) :
    (c.conclude i s).1.unjudged = c.unjudged := by
  have filled : (c.modify i fun r => { r with status := s }).unjudged = c.unjudged :=
    map_modify_same _ _ fun _ => rfl
  rw [← filled]
  unfold conclude
  dsimp only
  split <;> split <;> rfl

/-- No `pick` waits to be undone after a verdict. -/
@[simp] theorem conclude_restore (i : Nat) (s : Status) : (c.conclude i s).1.restore = none := by
  unfold conclude
  dsimp only
  split
  · assumption
  · rfl

/-- Only a verdict at the top of the chain moves the fail point. -/
theorem conclude_failPoint (i : Nat) (s : Status) : (c.conclude i s).1.result.failPoint =
    if c.depth = 0 then failPointAfter c.result.failPoint i s else c.result.failPoint := by
  unfold conclude
  by_cases top : c.depth = 0
  · simp only [setStatus, modify, top, if_true]
    split <;> rfl
  · simp only [setStatus, modify, top, if_false]
    split <;> rfl

section resolve

variable (i : Nat) (v : Status)

@[simp] theorem resolve_options : (c.resolve i v).1.options = c.options := by
  obtain ⟨c₁, s, same, filled⟩ := c.resolve_conclude i v
  rw [same, conclude_options, filled.options]

@[simp] theorem resolve_depth : (c.resolve i v).1.depth = c.depth := by
  obtain ⟨c₁, s, same, filled⟩ := c.resolve_conclude i v
  rw [same, conclude_depth, filled.depth]

@[simp] theorem resolve_restore : (c.resolve i v).1.restore = none := by
  obtain ⟨c₁, s, same, _⟩ := c.resolve_conclude i v
  rw [same, conclude_restore]

@[simp] theorem resolve_unjudged : (c.resolve i v).1.unjudged = c.unjudged := by
  obtain ⟨c₁, s, same, filled⟩ := c.resolve_conclude i v
  rw [same, conclude_unjudged, filled.unjudged]

@[simp] theorem resolve_lasting : (c.resolve i v).1.lasting = c.lasting := by
  rw [← map_lasting_unjudged, resolve_unjudged, map_lasting_unjudged]

@[simp] theorem length_resolve :
    (c.resolve i v).1.result.trace.length = c.result.trace.length := by
  rw [← length_lasting, resolve_lasting, length_lasting]

theorem resolve_failPoint : (c.resolve i v).1.result.failPoint =
    if c.depth = 0 then failPointAfter c.result.failPoint i (c.resolve i v).1.result.status
    else c.result.failPoint := by
  obtain ⟨c₁, s, same, filled⟩ := c.resolve_conclude i v
  rw [same, conclude_failPoint, conclude_status, filled.depth, filled.failPoint]

end resolve

/-! ## What the steps record -/

theorem appends_issue (op : Operator) (left : Status) :
    Appends c (.logic (.logic op) (some left)) (c.issue op left) :=
  rfl

theorem appends_issued {op : Operator} {step : Clause × List String}
    (issued : c.addOperator op = .ok step) :
    ∃ left, Appends c (.logic (.logic op) (some left)) step.1 := by
  rcases c.addOperator_cases issued with ⟨_, left, same, _⟩ | ⟨a, _, left, _, is_not, same⟩
  · exact ⟨left, same ▸ c.appends_issue op left⟩
  · exact ⟨left, same ▸ is_not ▸ appends_issue { c with deferred := some a } .not left⟩

theorem appends_setSubject (o : Operation) (captured : Option Snapshot) (v : Value) :
    Appends c { Record.setter o with captured } (c.setSubject o captured v) := by
  unfold Clause.setSubject
  dsimp only
  split <;> rfl

theorem appends_judge (m : Matcher) (captured : Option Snapshot) (matched : Bool) :
    Appends c { Record.matcher m.operation with captured } (c.judge m captured matched).1 :=
  resolve_unjudged _ _ _

theorem appends_abort (o : Operation) (role : Role) (text : String) (captured : Option Snapshot) :
    Appends c { Record.exception o role text with captured } (c.abort o role text captured) :=
  rfl

theorem appends_openGroup : Appends c (.logic .blockStart (some .pass)) c.openGroup := rfl

theorem appends_closeGroup (outer inner : Clause) :
    Appends inner (.logic .blockEnd (some outer.result.status))
      (closeGroup outer { inner with depth := inner.depth - 1 }).1 :=
  resolve_unjudged _ _ _

/-! ## Groups -/

/-- As many groups are open as before, under the same options; in a group the fail point stays. -/
structure SameLevel (c c' : Clause) : Prop where
  options : c'.options = c.options
  depth : c'.depth = c.depth
  failPoint : 0 < c.depth → c'.result.failPoint = c.result.failPoint

theorem sameLevel_setSubject (o : Operation) (captured : Option Snapshot) (v : Value) :
    SameLevel c (c.setSubject o captured v) := by
  unfold Clause.setSubject
  dsimp only
  split <;> exact ⟨rfl, rfl, fun _ => rfl⟩

theorem sameLevel_evolution : Evolution SameLevel where
  refl c := ⟨rfl, rfl, fun _ => rfl⟩
  trans first second :=
    { options := second.options.trans first.options
      depth := second.depth.trans first.depth
      failPoint := fun inside =>
        (second.failPoint (first.depth.symm ▸ inside)).trans (first.failPoint inside) }
  issue := by
    intro c op step issued
    rcases c.addOperator_cases issued with ⟨_, left, same, _⟩ | ⟨a, _, left, _, _, same⟩
    · exact same ▸ ⟨rfl, rfl, fun _ => rfl⟩
    · exact same ▸ ⟨rfl, rfl, fun _ => rfl⟩
  setSubject c _ := c.sameLevel_setSubject _
  restoreTo c v := ⟨rfl, rfl, fun _ => rfl⟩
  judge c m captured matched :=
    { options := resolve_options _ _ _
      depth := resolve_depth _ _ _
      failPoint := fun inside =>
        (resolve_failPoint _ _ _).trans (if_neg (Nat.ne_of_gt inside)) }
  abort c call role text captured := ⟨rfl, rfl, fun _ => rfl⟩
  leaveGroup := by
    intro outer inner inside
    exact ⟨inside.options, by rw [inside.depth]; rfl, fun _ => inside.failPoint (Nat.succ_pos _)⟩
  closeGroup := by
    intro outer inner inside _
    have depth : inner.depth - 1 = outer.depth := by rw [inside.depth]; rfl
    refine ⟨(resolve_options _ _ _).trans inside.options, (resolve_depth _ _ _).trans depth,
      fun deep => ?_⟩
    have below : inner.depth - 1 ≠ 0 := by omega
    exact ((resolve_failPoint _ _ _).trans (if_neg below)).trans (inside.failPoint (Nat.succ_pos _))

/-! ## Places of a trace -/

/-- What a clause points at are places of its trace. -/
structure Placed (c : Clause) : Prop where
  active : ∀ a, c.active = some a → a < c.result.trace.length
  deferred : ∀ d, c.deferred = some d → d < c.result.trace.length
  failPoint : ∀ p, c.result.failPoint = some p → p < c.result.trace.length

theorem failPointAfter_cases {failPoint : Option Nat} {i p : Nat} {s : Status}
    (moved : failPointAfter failPoint i s = some p) : failPoint = some p ∨ p = i := by
  unfold failPointAfter at moved
  split at moved
  · cases failPoint with
    | none => exact .inr (Option.some.inj moved).symm
    | some q => exact .inl moved
  · split at moved
    · cases moved
    · exact .inl moved

/-- The trace has grown, and what the clause points at is still in it. -/
structure Grows (c c' : Clause) : Prop where
  length : c.result.trace.length ≤ c'.result.trace.length
  placed : c.Placed → c'.Placed

/-- A verdict is recorded at the end of a trace. -/
theorem grows_resolve {r : Record} (judged : r.operation.operator? = none) (v : Status) :
    Grows c ((c.add r).resolve c.result.trace.length v).1 := by
  obtain ⟨_, active, deferred, entries⟩ := c.resolve_add judged v
  have grown : ((c.add r).resolve c.result.trace.length v).1.result.trace.length =
      c.result.trace.length + 1 := by
    rw [← length_entries, entries]
    simp
  refine ⟨by omega, fun placed => ⟨fun a named => ?_, fun d named => ?_, fun p named => ?_⟩⟩
  · rw [active] at named
    cases named
    omega
  · rw [deferred] at named
    split at named
    · cases named
    · have := placed.deferred d named
      omega
  · have before (q : Nat) (pointed : c.result.failPoint = some q) : q < c.result.trace.length + 1 :=
      Nat.lt_succ_of_lt (placed.failPoint q pointed)
    rw [grown]
    rw [resolve_failPoint] at named
    split at named
    · rcases failPointAfter_cases named with pointed | here
      · exact before p pointed
      · omega
    · exact before p named

/-- A record of no verdict leaves alone what the clause points at. -/
theorem grows_append {c c' : Clause} (length : c'.result.trace.length = c.result.trace.length + 1)
    (active : c'.active = c.active) (deferred : c'.deferred = c.deferred)
    (failPoint : c'.result.failPoint = c.result.failPoint) : Grows c c' := by
  refine ⟨by omega, fun placed => ⟨fun a named => ?_, fun d named => ?_, fun p named => ?_⟩⟩
  · have := placed.active a (active ▸ named)
    omega
  · have := placed.deferred d (deferred ▸ named)
    omega
  · have := placed.failPoint p (failPoint ▸ named)
    omega

theorem length_openGroup : c.openGroup.result.trace.length = c.result.trace.length + 1 :=
  length_add _ _

theorem Placed.openGroup {c : Clause} (placed : c.Placed) : c.openGroup.Placed where
  active := by simp [Clause.openGroup]
  deferred := by simp [Clause.openGroup]
  failPoint p named := by
    rw [length_openGroup]
    exact Nat.lt_succ_of_lt (placed.failPoint p named)

@[simp] theorem setSubject_failPoint (o : Operation) (captured : Option Snapshot) (v : Value) :
    (c.setSubject o captured v).result.failPoint = c.result.failPoint := by
  unfold Clause.setSubject
  dsimp only
  split <;> rfl

theorem length_issue (op : Operator) (left : Status) :
    (c.issue op left).result.trace.length = c.result.trace.length + 1 := length_add _ _

theorem Placed.issue {c : Clause} (placed : c.Placed) (op : Operator) (left : Status) :
    (c.issue op left).Placed := by
  have grown := c.length_issue op left
  refine ⟨fun a named => ?_, fun d named => ?_, fun p named => ?_⟩
  · cases named
    omega
  · have := placed.deferred d named
    omega
  · have := placed.failPoint p named
    omega

theorem grows_evolution : Evolution Grows where
  refl c := ⟨Nat.le_refl _, id⟩
  trans first second :=
    ⟨Nat.le_trans first.length second.length, fun placed => second.placed (first.placed placed)⟩
  issue := by
    intro c op step issued
    rcases c.addOperator_cases issued with ⟨_, left, same, _⟩ | ⟨a, _, left, waits, _, same⟩
    · have grown := c.length_issue op left
      exact same ▸ ⟨by omega, fun placed => placed.issue op left⟩
    · have grown := ({ c with deferred := some a } : Clause).length_issue .not left
      refine same ▸ ⟨by rw [grown]; exact Nat.le_succ _, fun placed => ?_⟩
      have pushed : ({ c with deferred := some a } : Clause).Placed :=
        ⟨placed.active, fun d named => by
          cases named
          exact placed.active a (c.waiting?_eq_some.mp waits).1, placed.failPoint⟩
      exact pushed.issue .not left
  setSubject c _ captured v :=
    grows_append (by rw [← length_entries, entries_setSubject]; simp)
      (setSubject_active _ _ _ _) (setSubject_deferred _ _ _ _) (setSubject_failPoint _ _ _ _)
  restoreTo c v := ⟨Nat.le_refl _, fun placed => ⟨placed.active, placed.deferred, placed.failPoint⟩⟩
  judge c m captured matched := c.grows_resolve (by cases m <;> rfl) _
  abort c call role text captured := grows_append (length_add _ _) rfl rfl rfl
  leaveGroup := by
    intro outer inner inside
    have grown : outer.result.trace.length ≤ inner.result.trace.length :=
      Nat.le_trans (Nat.le.intro outer.length_openGroup.symm) inside.length
    refine ⟨grown, fun placed => ?_⟩
    have ended := inside.placed placed.openGroup
    exact ⟨ended.active, ended.deferred, ended.failPoint⟩
  closeGroup := by
    intro outer inner inside _
    have grown : outer.result.trace.length ≤ inner.result.trace.length :=
      Nat.le_trans (Nat.le.intro outer.length_openGroup.symm) inside.length
    have closed := (resume outer { inner with depth := inner.depth - 1 }).grows_resolve
      (r := .logic .blockEnd (some outer.result.status)) rfl inner.result.status
    refine ⟨Nat.le_trans grown closed.length, fun placed => closed.placed ?_⟩
    -- What waits outside of the group lies before it, so it is found again where it was.
    exact ⟨fun a named => Nat.lt_of_lt_of_le (placed.active a named) grown,
      fun d named => Nat.lt_of_lt_of_le (placed.deferred d named) grown,
      (inside.placed placed.openGroup).failPoint⟩

theorem placed_new (o : Options) : ({ options := o } : Clause).Placed where
  active := by simp
  deferred := by simp
  failPoint := by simp

end Clause

/-- Wherever code comes by from a world without clauses, a clause points only at places that its
    trace has. -/
theorem Code.placed_visits {code : Code} {w w' : World} (new : w.clauses = [])
    (visits : code.Visits w w') (i : Nat) : (w'.clause i).Placed := by
  have fresh : w.clause i = { options := w.options } := by
    simp [World.clause, new, Entries.lookup]
  have opened (c : Clause) : Clause.Grows c c.openGroup :=
    ⟨Nat.le.intro c.length_openGroup.symm, Clause.Placed.openGroup⟩
  exact (evolves_visits Clause.grows_evolution opened i visits).placed
    (fresh ▸ Clause.placed_new w.options)

namespace Clause

/-! ## Indices -/

/-- From a place on, records know their own places. -/
def Indexed (base : Nat) (c : Clause) : Prop :=
  ∀ j, base ≤ j → j < c.result.trace.length → c.indices[j]? = some (some j)

/-- A trace that grows by a record, which is told its place, goes on to be indexed. -/
theorem Indexed.append {base : Nat} {c c' : Clause} {r : Record} (appends : Appends c r c')
    (indexed : Indexed base c) : Indexed base c' := by
  have grown : c'.result.trace.length = c.result.trace.length + 1 := by
    rw [← length_lasting, appends.lasting, List.length_append, length_lasting]
    rfl
  have length : c.indices.length = c.result.trace.length := by simp [Clause.indices]
  have indices : c'.indices = c.indices ++ [some c.result.trace.length] := by
    rw [← map_index_lasting, appends.lasting, List.map_append, map_index_lasting]
    rfl
  intro j above inside
  rw [indices]
  rcases Nat.lt_succ_iff_lt_or_eq.mp (grown ▸ inside) with before | last
  · rw [List.getElem?_append_left (by rw [length]; exact before)]
    exact indexed j above before
  · rw [last, ← length, List.getElem?_concat_length]

theorem indexed_evolution (base : Nat) :
    Evolution fun c c' : Clause => Indexed base c → Indexed base c' where
  refl _ := id
  trans first second := second ∘ first
  issue issued := .append (appends_issued _ issued).choose_spec
  setSubject c _ captured v := .append (c.appends_setSubject _ captured v)
  restoreTo _ _ := id
  judge c m captured matched := .append (c.appends_judge m captured matched)
  abort c _ role text captured := .append (c.appends_abort _ role text captured)
  leaveGroup inside indexed := inside (.append (appends_openGroup _) indexed)
  closeGroup inside _ indexed :=
    .append (appends_closeGroup _ _) (inside (.append (appends_openGroup _) indexed))

/-- What a clause has recorded it has recorded for good. -/
def Extends (c c' : Clause) : Prop := c.lasting <+: c'.lasting

theorem Appends.extends {c c' : Clause} {r : Record} (appends : Appends c r c') : Extends c c' :=
  ⟨_, appends.lasting.symm⟩

theorem Extends.trans {a b c : Clause} (first : Extends a b) (second : Extends b c) : Extends a c :=
  List.IsPrefix.trans first second

theorem extends_evolution : Evolution Extends where
  refl _ := List.prefix_rfl
  trans first second := first.trans second
  issue issued := (appends_issued _ issued).choose_spec.extends
  setSubject c _ captured v := (c.appends_setSubject _ captured v).extends
  restoreTo _ _ := List.prefix_rfl
  judge c m captured matched := (c.appends_judge m captured matched).extends
  abort c _ role text captured := (c.appends_abort _ role text captured).extends
  leaveGroup {outer _} inside := outer.appends_openGroup.extends.trans inside
  closeGroup {outer inner} inside _ :=
    (outer.appends_openGroup.extends.trans inside).trans (appends_closeGroup outer inner).extends

theorem extends_succession : Succession (fun _ => True) Extends Extends where
  evolution := extends_evolution
  opened c := c.appends_openGroup.extends
  weaken := id
  trans := extends_evolution.trans
  known _ _ := trivial
  left _ := List.prefix_rfl
  closed _ _ := (appends_closeGroup _ _).extends

end Clause

end Assay
