import Assay.Proofs.Facet.Company
import Assay.Proofs.Facet.Names

/-! # Runs alone and in company

A body that is alike alone and in company ends in the same way in both: every call, registration
and exception on the one side has its like on the other, and what belongs to others stays as it is.
-/

namespace Assay

variable {α β γ δ : Type}

/-- Two ways to end: with related values, or with the same exception. -/
inductive Returns (R : Renaming) (T : α → β → Prop) :
    Except Raised α → Except Raised β → Prop where
  | ok {x x'} : T x x' → Returns R T (.ok x) (.ok x')
  | error {r r'} : r.Renamed R r' → Returns R T (.error r) (.error r')

/-- What a matcher finds does not depend on addresses. -/
theorem Heap.Twin.compare {R : Renaming} {h h' : Heap} (twin : h.Twin R h') (m : Matcher)
    {v v' x x' : Value} (subject : v.Renamed R v') (expected : x.Renamed R x') :
    Results R False Eq (World.compare h m v x) (World.compare h' m v' x') := by
  cases m with
  | is => exact twin.equal _ _ _ _ subject expected
  | like =>
      simp only [World.compare, twin.isLeaf expected]
      split
      · exact twin.equal _ _ _ _ subject expected
      · exact twin.like subject expected
  | isType => exact twin.isInstance subject expected

namespace Company

variable {c : Company}

theorem facets_setFacet {n : Nat} {w w' : World}
    (facets : ∀ i i', c.facetShift.Moves i i' → c.Facets n (w.facet i) (w'.facet i')) {i i' : Nat}
    (here : c.facetShift.Moves i i') {f f' : Facet Nat} (same : c.Facets n f f') (j j' : Nat)
    (there : c.facetShift.Moves j j') :
    c.Facets n ((w.setFacet i f).facet j) ((w'.setFacet i' f').facet j') := by
  have meets := here.eq_iff there
  by_cases at_i : i = j
  · rw [← at_i, ← meets.mp at_i, World.facet_setFacet_self, World.facet_setFacet_self]
    exact same
  · rw [World.facet_setFacet_of_ne at_i,
      World.facet_setFacet_of_ne fun at_i' => at_i (meets.mpr at_i')]
    exact facets j j' there

variable (c)

/-- How a body has ended alone, and in company. -/
structure Ends (T : α → β → Prop) (o : Outcome α) (o' : Outcome β) : Prop where
  worlds : c.Worlds o.1 o'.1
  result : Returns c.moves T o.2 o'.2

/-- Code that ends in the same way wherever it runs. -/
def Blocks (b b' : Block) : Prop :=
  ∀ v v' w w', v.Renamed c.moves v' → c.Worlds w w' →
    c.Ends (Value.Renamed c.moves) (b v w) (b' v' w')

/-- The same argument of a call alone and in company. -/
inductive Arguments : Argument → Argument → Prop where
  | absent : Arguments .absent .absent
  | plain {type} : Arguments (.plain type) (.plain type)
  | code {b b'} : c.Blocks b b' → Arguments (.code b) (.code b')

variable {c} {T : α → β → Prop} {S : γ → δ → Prop}

theorem Arguments.block? {arg arg' : Argument} (arguments : c.Arguments arg arg') :
    (∃ type, arg.block? = .error type ∧ arg'.block? = .error type) ∨
      ∃ b b', arg.block? = .ok b ∧ arg'.block? = .ok b' ∧ c.Blocks b b' := by
  cases arguments with
  | absent | plain => exact .inl ⟨_, rfl, rfl⟩
  | code blocks => exact .inr ⟨_, _, rfl, rfl, blocks⟩

/-- Both runs come to a value, or both are ended by an exception. -/
theorem Ends.ok_or_error {o : Outcome α} {o' : Outcome β} (ends : c.Ends T o o') :
    (∃ w w' x x', o = (w, .ok x) ∧ o' = (w', .ok x') ∧ c.Worlds w w' ∧ T x x') ∨
      ∃ w w' r r', o = (w, .error r) ∧ o' = (w', .error r') ∧ c.Worlds w w' ∧
        r.Renamed c.moves r' := by
  obtain ⟨w, result⟩ := o
  obtain ⟨w', result'⟩ := o'
  obtain ⟨worlds, returns⟩ := ends
  cases returns with
  | ok related => exact .inl ⟨w, w', _, _, rfl, rfl, worlds, related⟩
  | error raised => exact .inr ⟨w, w', _, _, rfl, rfl, worlds, raised⟩

theorem Ends.andThen {o : Outcome α} {o' : Outcome β} {next : World → α → Outcome γ}
    {next' : World → β → Outcome δ} (ends : c.Ends T o o')
    (rest : ∀ w w' x x', c.Worlds w w' → T x x' → c.Ends S (next w x) (next' w' x')) :
    c.Ends S (o.andThen next) (o'.andThen next') := by
  rcases ends.ok_or_error with
    ⟨w, w', x, x', rfl, rfl, worlds, related⟩ | ⟨w, w', r, r', rfl, rfl, worlds, raised⟩
  · exact rest w w' x x' worlds related
  · exact ⟨worlds, .error raised⟩

namespace Worlds

variable {w w' : World} (worlds : c.Worlds w w')

include worlds

/-! ## What a world keeps -/

theorem note (level level' : Level) (channel channel' : Channel) (text text' : String) :
    c.Worlds (w.note level channel text) (w'.note level' channel' text') :=
  { worlds with }

theorem debug (texts texts' : List String) : c.Worlds (w.debug texts) (w'.debug texts') := by
  have left : c.Worlds (w.debug texts) w' := by
    induction texts generalizing w with
    | nil => exact worlds
    | cons text rest ih => exact ih { worlds with }
  induction texts' generalizing w' with
  | nil => exact left
  | cons text rest ih => exact ih { worlds with } { left with }

theorem setMemory {m m' : Memory} (memories : c.Memories m m') :
    c.Worlds { w with memory := m } { w' with memory := m' } :=
  { worlds with memories }

theorem setHeap {h h' : Heap} (heaps : c.Heaps h h') : c.Worlds (w.setHeap h) (w'.setHeap h') :=
  worlds.setMemory { worlds.memories with heaps }

theorem moves_fresh : c.clauseShift.Moves (Entries.fresh w.clauses) (Entries.fresh w'.clauses) := by
  rw [worlds.freshClause]
  exact c.clauseShift.moves_new worlds.startClause

theorem setClause (proper : c.Proper) {i i' : Nat} (here : c.clauseShift.Moves i i') {k k' : Clause}
    (renamed : k.Renamed c.moves k') : c.Worlds (w.setClause i k) (w'.setClause i' k') where
  memories := worlds.memories
  options := worlds.options
  options' := worlds.options'
  clauses j j' there := by
    have same := here.eq_iff there
    by_cases at_i : i = j
    · rw [← at_i, ← same.mp at_i, World.clause_setClause_self, World.clause_setClause_self]
      exact renamed
    · rw [World.clause_setClause_of_ne at_i,
        World.clause_setClause_of_ne fun at_i' => at_i (same.mpr at_i')]
      exact worlds.clauses j j' there
  startClause := by
    simp only [World.setClause, Entries.fresh_insert]
    exact Nat.le_trans worlds.startClause (Nat.le_max_right _ _)
  freshClause := by
    simp only [World.setClause, Entries.fresh_insert, worlds.freshClause]
    exact here.max_succ worlds.startClause
  otherClauses j old other := by
    have elsewhere := here.ne_other (old.trans_eq (clauseShift_gap proper).symm) other
    rw [World.clause_setClause_of_ne elsewhere]
    exact worlds.otherClauses j old other
  facets j j' there := by
    have facets := worlds.facets j j' there
    refine { facets with tests := facets.tests.imp fun p q both => ⟨both.1, both.2.1, ?_⟩ }
    simp only [World.setClause, Entries.fresh_insert]
    exact Nat.lt_of_lt_of_le both.2.2 (Nat.le_max_right _ _)
  entered := worlds.entered
  freshFacet := worlds.freshFacet
  otherFacets := worlds.otherFacets

theorem update (proper : c.Proper) {i i' : Nat} (here : c.clauseShift.Moves i i')
    {step step' : Clause × List String} (steps : Clause.Renamed.Steps c.moves step step') :
    c.Worlds (w.update i step) (w'.update i' step') :=
  (worlds.setClause proper here steps.1).debug _ _

theorem setFacet (proper : c.Proper) {i i' : Nat} (here : c.facetShift.Moves i i') {f f' : Facet Nat}
    (same : c.Facets (Entries.fresh w.clauses) f f') :
    c.Worlds (w.setFacet i f) (w'.setFacet i' f') where
  memories := worlds.memories
  options := worlds.options
  options' := worlds.options'
  clauses := worlds.clauses
  startClause := worlds.startClause
  freshClause := worlds.freshClause
  otherClauses := worlds.otherClauses
  facets := facets_setFacet worlds.facets here same
  entered := by
    simp only [World.setFacet, Entries.fresh_insert]
    exact Nat.lt_of_lt_of_le worlds.entered (Nat.le_max_right _ _)
  freshFacet := by
    simp only [World.setFacet, Entries.fresh_insert, worlds.freshFacet]
    exact here.max_succ worlds.entered.le
  otherFacets j old other := by
    have elsewhere := here.ne_other (old.trans_eq (facetShift_gap proper).symm) other
    rw [World.facet_setFacet_of_ne elsewhere]
    exact worlds.otherFacets j old other

theorem heaps : c.Heaps w.heap w'.heap := worlds.memories.heaps

/-! ## What is raised -/

variable (proper : c.Proper)

include proper

theorem twin : w.heap.Twin c.moves w'.heap := worlds.heaps.twin proper

theorem raise {f f' : Fault} (fault : f.Renamed c.moves f') :
    c.Ends T (w.raise f) (w'.raise f') := by
  have raised := worlds.heaps.raise proper fault
  exact ⟨worlds.setHeap raised.1, .error (.error raised.2)⟩

theorem raiseOwn (cls : ClassName) (message : String) {attrs attrs' : List (String × Value)}
    (attributes : c.moves.Named attrs attrs') {raised raised' : Address → Raised}
    (same : ∀ a a', c.moves a a' → (raised a).Renamed c.moves (raised' a')) :
    c.Ends T (w.raiseOwn cls message attrs raised) (w'.raiseOwn cls message attrs' raised') := by
  obtain ⟨heaps, args⟩ := worlds.heaps.tuple proper (.cons (.datum rfl) .nil :
    c.moves.Values [.text message] [.text message])
  exact ⟨worlds.setHeap (heaps.alloc proper ⟨rfl, .error args, attributes, .nil⟩),
    .error (same _ _ heaps.fresh)⟩

theorem misuse (m : Misuse) : c.Ends T (w.misuse m) (w'.misuse m) :=
  worlds.raiseOwn proper _ _ .nil fun _ _ => .misused

/-! ## Steps of a call -/

variable {i i' : Nat} (here : c.clauseShift.Moves i i')

include here

omit proper here in
theorem remembering (i i' : Nat) (v v' : Value) : c.Worlds (w.remembering i v) (w'.remembering i' v') := by
  have names (k : Clause) (m : Memory) (v : Value) (name : String) :
      (k.remember m v).named? name = m.named? name := by
    unfold Clause.remember
    split <;> rfl
  refine worlds.setMemory ⟨?_, ?_, ?_⟩
  · simpa only [Clause.remember_heap] using worlds.memories.heaps
  · simpa only [names] using worlds.memories.names
  · simpa only [names] using worlds.memories.others

theorem picture {v v' : Value} (value : v.Renamed c.moves v') :
    Results c.moves False (Option.Rel (Snapshot.Renamed c.moves)) ((w.clause i).picture w.heap v)
      ((w'.clause i').picture w'.heap v') := by
  unfold Clause.picture
  rw [(worlds.clauses i i' here).tracing]
  split
  · exact ((worlds.twin proper).buildSnapshot (.datum rfl) value).map fun _ _ => .some
  · exact .ok .none

theorem abort (o : Operation) (role : Role) {a a' : Address} (raised : c.moves a a') :
    c.Ends T (w.abort i o role a) (w'.abort i' o role a') := by
  have captured := worlds.remembering i i' (.ref a) (.ref a')
  rcases ((worlds.twin proper).errorText (.ref raised)).ok_or_error with
    ⟨text, _, told, told', rfl⟩ | ⟨f, f', told, told', fault⟩
  · rcases (worlds.picture proper here (.ref raised)).ok_or_error with
      ⟨s, s', taken, taken', snapshot⟩ | ⟨f, f', taken, taken', fault⟩
    · have recorded := (captured.setClause proper here
        ((captured.clauses i i' here).abort o role text snapshot)).note .info .info .clause
        .clause (abortMessage o text) (abortMessage o text)
      have attributes : c.moves.Named
          [("operation", .member (Standard.operationMember o)), ("error", .ref a)]
          [("operation", .member (Standard.operationMember o)), ("error", .ref a')] :=
        .cons ⟨rfl, .datum rfl⟩ (.cons ⟨rfl, .ref raised⟩ .nil)
      rw [World.abort_captured told taken, World.abort_captured told' taken',
        (worlds.heaps.objects a a' raised).cls]
      exact recorded.raiseOwn proper _ _ attributes fun _ _ => .aborted
    · simp only [World.abort, World.capture_eq, told, told', taken, taken']
      exact captured.raise proper fault
  · simp only [World.abort, told, told']
    exact worlds.raise proper fault

theorem setSubject (o : Operation) {v v' : Value} (value : v.Renamed c.moves v') :
    c.Ends Eq (w.setSubject i o v) (w'.setSubject i' o v') := by
  have captured := worlds.remembering i i' v v'
  simp only [World.setSubject, World.capture_eq]
  rcases (worlds.picture proper here value).ok_or_error with
    ⟨s, s', taken, taken', snapshot⟩ | ⟨f, f', taken, taken', fault⟩
  · rw [taken, taken']
    exact ⟨captured.setClause proper here ((captured.clauses i i' here).setSubject o snapshot value),
      .ok rfl⟩
  · rw [taken, taken']
    exact captured.raise proper fault

theorem judge (m : Matcher) {v v' : Value} (value : v.Renamed c.moves v') :
    c.Ends Eq (w.judge i m v) (w'.judge i' m v') := by
  have subject : ((w.clause i).subject.getD .null).Renamed c.moves
      ((w'.clause i').subject.getD .null) := by
    have subjects := (worlds.clauses i i' here).subject
    generalize (w.clause i).subject = x, (w'.clause i').subject = x' at subjects ⊢
    cases subjects with
    | none => exact .datum rfl
    | some same => exact same
  have captured := worlds.remembering i i' v v'
  simp only [World.judge, World.capture_eq]
  rcases ((worlds.twin proper).compare m subject value).ok_or_error with
    ⟨matched, _, found, found', rfl⟩ | ⟨f, f', found, found', fault⟩
  · rw [found, found']
    rcases (worlds.picture proper here value).ok_or_error with
      ⟨s, s', taken, taken', snapshot⟩ | ⟨f, f', taken, taken', fault⟩
    · rw [taken, taken']
      exact ⟨captured.update proper here
        ((captured.clauses i i' here).judge m matched snapshot), .ok rfl⟩
    · rw [taken, taken']
      exact captured.raise proper fault
  · rw [found, found']
    have raised := worlds.heaps.raise proper fault
    exact (worlds.setHeap raised.1).abort proper here _ _ raised.2

/-! ## Calls -/

variable {arg arg' : Argument} (arguments : c.Arguments arg arg')

include arguments

theorem produce (o : Operation) (role : Role) {v v' : Value} (value : v.Renamed c.moves v') :
    c.Ends (Value.Renamed c.moves) (w.produce i o role arg v) (w'.produce i' o role arg' v') := by
  unfold World.produce
  rcases arguments.block? with ⟨type, left, right⟩ | ⟨b, b', left, right, blocks⟩
  · rw [left, right]
    exact worlds.misuse proper _
  · rw [left, right]
    dsimp only
    rcases (blocks v v' w w' value worlds).ok_or_error with
      ⟨w₁, w₁', x, x', ran, ran', worlds, value⟩ | ⟨w₁, w₁', r, r', ran, ran', worlds, raised⟩
    · rw [ran, ran']
      exact ⟨worlds, .ok value⟩
    · rw [ran, ran']
      simp only [raised.isInterrupt]
      split
      · exact ⟨worlds, .error raised⟩
      · exact worlds.abort proper here _ _ raised.address

theorem pick : c.Ends Eq (w.pick i arg) (w'.pick i' arg') := by
  have subjects := (worlds.clauses i i' here).subject
  unfold World.pick
  generalize (w.clause i).subject = x, (w'.clause i').subject = x' at subjects ⊢
  cases subjects with
  | none => exact worlds.misuse proper _
  | some subject =>
      refine (worlds.produce proper here arguments _ _ subject).andThen fun w w' v v' worlds value => ?_
      refine (worlds.setSubject proper here _ value).andThen fun w w' _ _ worlds _ => ?_
      exact ⟨worlds.setClause proper here
        { worlds.clauses i i' here with restore := .some subject }, .ok rfl⟩

theorem catchError : c.Ends Eq (w.catchError i arg) (w'.catchError i' arg') := by
  unfold World.catchError
  rcases arguments.block? with ⟨type, left, right⟩ | ⟨b, b', left, right, blocks⟩
  · rw [left, right]
    exact worlds.misuse proper _
  · rw [left, right]
    dsimp only
    rcases (blocks .null .null w w' (.datum rfl) worlds).ok_or_error with
      ⟨w₁, w₁', x, x', ran, ran', worlds, _⟩ | ⟨w₁, w₁', r, r', ran, ran', worlds, raised⟩
    · rw [ran, ran']
      exact worlds.setSubject proper here _ (.datum rfl)
    · rw [ran, ran']
      simp only [raised.isInterrupt]
      split
      · exact ⟨worlds, .error raised⟩
      · rcases ((worlds.twin proper).errorText (.ref raised.address)).ok_or_error with
          ⟨text, _, told, told', rfl⟩ | ⟨f, f', told, told', fault⟩
        · rw [told, told']
          exact (worlds.debug _ _).setSubject proper here _ (.ref raised.address)
        · rw [told, told']
          exact worlds.raise proper fault

theorem group (op : Operator) : c.Ends Eq (w.group i op arg) (w'.group i' op arg') := by
  unfold World.group
  rcases arguments.block? with ⟨type, left, right⟩ | ⟨b, b', left, right, blocks⟩
  · rw [left, right]
    exact worlds.misuse proper _
  · rw [left, right]
    -- The block works on the opened group; what waited around it is kept aside.
    have outer := worlds.clauses i i' here
    have opened := worlds.setClause proper here outer.openGroup
    have closed {w w' : World} (worlds : c.Worlds w w') : Clause.Renamed c.moves
        { w.clause i with depth := (w.clause i).depth - 1 }
        { w'.clause i' with depth := (w'.clause i').depth - 1 } :=
      have inner := worlds.clauses i i' here
      { inner with depth := congrArg (· - 1) inner.depth }
    dsimp only
    rcases (blocks .null .null _ _ (.datum rfl) opened).ok_or_error with
      ⟨w₁, w₁', x, x', ran, ran', worlds, _⟩ | ⟨w₁, w₁', r, r', ran, ran', worlds, raised⟩
    · rw [ran, ran']
      have left := worlds.setClause proper here (closed worlds)
      simp only [(worlds.clauses i i' here).result.status]
      split
      · exact left.misuse proper _
      · exact ⟨left.update proper here ((closed worlds).closeGroup outer), .ok rfl⟩
    · rw [ran, ran']
      have left := worlds.setClause proper here (closed worlds)
      simp only [raised.leavesGroups]
      split
      · exact ⟨left, .error raised⟩
      · exact left.abort proper here _ _ raised.address

theorem logic (op : Operator) : c.Ends Eq (w.logic i op arg) (w'.logic i' op arg') := by
  unfold World.logic
  rcases (worlds.clauses i i' here).addOperator op with
    ⟨m, left, right⟩ | ⟨step, step', left, right, steps⟩
  · rw [left, right]
    exact worlds.misuse proper m
  · rw [left, right]
    have issued := worlds.update proper here steps
    cases arguments with
    | absent => exact ⟨issued, .ok rfl⟩
    | plain => exact issued.group proper here .plain op
    | code blocks => exact issued.group proper here (.code blocks) op

theorem perform (call : Call) : c.Ends Eq (w.perform i call arg) (w'.perform i' call arg') := by
  cases call with
  | that =>
      refine (worlds.produce proper here arguments _ _ (.datum rfl)).andThen ?_
      exact fun _ _ _ _ worlds value => worlds.setSubject proper here _ value
  | pick => exact worlds.pick proper here arguments
  | err => exact worlds.catchError proper here arguments
  | check m =>
      have subjects := (worlds.clauses i i' here).subject
      simp only [World.perform]
      generalize (w.clause i).subject = x, (w'.clause i').subject = x' at subjects ⊢
      cases subjects with
      | none => exact worlds.misuse proper _
      | some subject =>
          refine (worlds.produce proper here arguments _ _ (.datum rfl)).andThen ?_
          exact fun _ _ _ _ worlds value => worlds.judge proper here m value
  | logic op => exact worlds.logic proper here arguments op

omit here arguments in
theorem register {i i' : Nat} (here : c.facetShift.Moves i i') (name : Option TestName) :
    c.Ends c.clauseShift.Moves (w.register i name) (w'.register i' name) := by
  have facets := worlds.facets i i' here
  have names : (w'.facet i').nameFor name = (w.facet i).nameFor name := by
    rw [Facet.nameFor, Facet.nameFor, facets.tests.length_eq]
  have taken : Entries.contains TestName.same ((w.facet i).nameFor name) (w'.facet i').tests =
      Entries.contains TestName.same ((w.facet i).nameFor name) (w.facet i).tests :=
    Entries.contains_related _ _ facets.tests
  simp only [World.register, Facet.register, names, taken]
  by_cases double : Entries.contains TestName.same ((w.facet i).nameFor name) (w.facet i).tests
  · simp only [double, if_true, facets.name]
    have attributes (facet : String) (test : TestName) : c.moves.Named
        [("facet_name", .text facet), ("test_name", test.value)]
        [("facet_name", .text facet), ("test_name", test.value)] :=
      .cons ⟨rfl, .datum rfl⟩ (.cons ⟨rfl, .datum test.isDatum_value⟩ .nil)
    by_cases writable : ((w.facet i).nameFor name).isWritable
    · simp only [TestName.written_of_writable writable]
      exact worlds.raiseOwn proper _ _ (attributes _ _) fun _ _ => .duplicate
    · simp only [TestName.written_of_not_writable writable]
      exact worlds.raise proper (.text _ _)
  · have noted (t : TestName) : (w'.facet i').registerNote t = (w.facet i).registerNote t := by
      unfold Facet.registerNote
      rw [facets.name]
    simp only [double, Bool.false_eq_true, if_false, noted]
    have new := worlds.moves_fresh
    have options : w'.options = w.options := worlds.options'.trans worlds.options.symm
    have unused : Clause.Renamed c.moves { options := w.options } { options := w'.options } :=
      ⟨options, ⟨rfl, .nil, rfl⟩, .none, .none, rfl, rfl, rfl⟩
    have made := worlds.setClause proper new unused
    have later : Entries.fresh w.clauses < Entries.fresh
        (w.setClause (Entries.fresh w.clauses) { options := w.options }).clauses := by
      simp only [World.setClause, Entries.fresh_insert]
      omega
    have tests := List.rel_append (made.facets i i' here).tests
      (.cons ⟨rfl, new, later⟩ .nil : List.Forall₂ _
        [((w.facet i).nameFor name, Entries.fresh w.clauses)]
        [((w.facet i).nameFor name, Entries.fresh w'.clauses)])
    have entered : c.Facets (Entries.fresh
        (w.setClause (Entries.fresh w.clauses) { options := w.options }).clauses)
        { w.facet i with tests := (w.facet i).tests ++ [_] }
        { w'.facet i' with tests := (w'.facet i').tests ++ [_] } :=
      ⟨facets.name, tests, facets.exceptional⟩
    -- The facet and the clause are entered in the other order, which makes no difference.
    have ended := made.setFacet proper here entered
    by_cases writable : ((w.facet i).nameFor name).isWritable
    · rw [TestName.written_of_writable writable]
      exact ⟨{ ended with }, .ok new⟩
    · rw [TestName.written_of_not_writable writable]
      have swapped : c.Worlds ((w.setFacet i _).setClause _ _) ((w'.setFacet i' _).setClause _ _) :=
        { ended with }
      exact swapped.raise proper (.text _ _)

end Worlds

theorem Alike.arguments (given : Given) {block block' : Value → Code}
    (runs : c.Blocks (fun v => (block v).run) fun v => (block' v).run) :
    c.Arguments (given.argument fun v => (block v).run) (given.argument fun v => (block' v).run) := by
  cases given with
  | absent => exact .absent
  | plain => exact .plain
  | code => exact .code runs

/-- Alike bodies end in the same way alone and in company. -/
theorem Alike.run {code code' : Code} (alike : c.Alike code code') (proper : c.Proper) {w w' : World}
    (worlds : c.Worlds w w') : c.Ends (Value.Renamed c.moves) (code.run w) (code'.run w') := by
  -- The trees of the blocks are inside that of the code, so that the induction reaches them, too.
  induction alike generalizing w w' with
  | give value => exact ⟨worlds, .ok value⟩
  | fail raised => exact ⟨worlds, .error raised⟩
  | load _ ih => exact ih _ _ worlds.memories worlds
  | save memories _ ih => exact ih (worlds.setMemory memories)
  | @call i i' call given block block' next next' rescue rescue' here _ _ _ blocks next rescue =>
      simp only [Code.run]
      rcases (worlds.perform proper here (Alike.arguments given fun v v' w w' value worlds =>
          blocks v v' value worlds) call).ok_or_error with
        ⟨w, w', x, x', ran, ran', worlds, _⟩ | ⟨w, w', r, r', ran, ran', worlds, raised⟩
      · rw [ran, ran']
        exact next worlds
      · rw [ran, ran']
        exact rescue r r' raised worlds
  | register here _ _ next rescue =>
      simp only [Code.run]
      rcases (worlds.register proper here _).ok_or_error with
        ⟨w, w', j, j', ran, ran', worlds, here⟩ | ⟨w, w', r, r', ran, ran', worlds, raised⟩
      · rw [ran, ran']
        exact next j j' here worlds
      · rw [ran, ran']
        exact rescue r r' raised worlds

end Company

end Assay
