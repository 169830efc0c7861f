import Assay.Proofs.Facet.Alongside

/-! # Facets that do not get in each other's way

Parties that share no values which can change run one after the other as each of them runs alone.
What a party leaves behind is renamed, and what belongs to the others is as it was. So is what those
have left behind that ran before.
-/

namespace Assay

/-! ## Where a body starts -/

theorem Body.Renamed.mono {R S : Renaming} (more : ∀ a a', R a a' → S a a') {b b' : Body}
    (renamed : b.Renamed R b') : b.Renamed S b' := by
  cases renamed with
  | plain => exact .plain
  | sequence items => exact .sequence (items.imp fun _ _ item => item.mono more)
  | mapping es => exact .mapping (es.imp fun _ _ e => ⟨e.1.mono more, e.2.mono more⟩)
  | members items => exact .members (items.imp fun _ _ item => item.mono more)
  | octets => exact .octets
  | error args => exact .error (args.mono more)

theorem Object.Renamed.mono {R S : Renaming} (more : ∀ a a', R a a' → S a a') {o o' : Object}
    (renamed : o.Renamed R o') : o.Renamed S o' where
  cls := renamed.cls
  body := renamed.body.mono more
  attrs := renamed.attrs.imp fun _ _ attr => ⟨attr.1, attr.2.mono more⟩
  slots := renamed.slots.imp fun _ _ slot => ⟨slot.1, slot.2.mono more⟩

namespace World

/-- A facet has been entered, and its body is about to run. -/
def openFacet (w : World) (name : String) : World :=
  (w.setFacet (Entries.fresh w.facets) { name }).note .info .run s!"Running facet '{name}'"

theorem clause_above {w : World} {i : Nat} (above : Entries.fresh w.clauses ≤ i) :
    w.clause i = { options := w.options } := by
  simp [clause, Entries.lookup_above w.clauses above]

theorem facet_above {w : World} {i : Nat} (above : Entries.fresh w.facets ≤ i) :
    w.facet i = { name := "" } := by
  simp [facet, Entries.lookup_above w.facets above]

end World

namespace Company.Proper

variable {c : Company} (proper : c.Proper)

include proper

theorem heaps : c.Heaps c.alone.heap c.now.heap where
  classes := rfl
  classes' := proper.leaves.classes
  start := Nat.le_refl _
  size := (addressShift_gap proper).symm
  objects a a' here := by
    rcases here with ⟨_, kept, rfl⟩ | ⟨new, rfl⟩
    · rw [proper.leaves.objects _ kept]
      exact (proper.encloses.objects _ kept).mono (moves_of_fixing proper)
    · have gap := addressShift_gap proper
      have new : c.alone.heap.objects.size ≤ a := new
      rw [Heap.object_absent new, Heap.object_absent (by omega)]
      exact Object.renamed_blank _
  others _ _ _ := rfl

theorem memories : c.Memories c.alone.memory c.now.memory where
  heaps := proper.heaps
  names name inside := by
    rw [proper.leaves.names name inside]
    cases found : c.alone.memory.named? name with
    | none => exact .none
    | some v =>
        exact .some ((proper.encloses.names name inside v found).mono (moves_of_fixing proper))
  others _ _ := rfl

theorem clauses {i i' : Nat} (here : c.clauseShift.Moves i i') :
    (c.alone.clause i).Renamed c.moves (c.now.clause i') := by
  rcases here with ⟨_, kept, rfl⟩ | ⟨new, rfl⟩
  · rw [proper.leaves.clauses _ kept]
    exact (proper.encloses.clauses _ kept).2.mono (moves_of_fixing proper)
  · have gap := clauseShift_gap proper
    have new : Entries.fresh c.alone.clauses ≤ i := new
    rw [World.clause_above new, World.clause_above (by omega)]
    exact ⟨proper.leaves.options, ⟨rfl, .nil, rfl⟩, .none, .none, rfl, rfl, rfl⟩

theorem facets {i i' : Nat} (here : c.facetShift.Moves i i') :
    c.Facets (Entries.fresh c.alone.clauses) (c.alone.facet i) (c.now.facet i') := by
  rcases here with ⟨_, kept, rfl⟩ | ⟨new, rfl⟩
  -- A facet of its own has tests whose clauses are its own as well.
  · rw [proper.leaves.facets _ kept]
    refine ⟨rfl, List.forall₂_same.mpr fun test inside => ⟨rfl, ?_⟩, rfl⟩
    have own := (proper.encloses.facets _ kept).2 test inside
    have old := (proper.encloses.clauses _ own).1
    exact ⟨.inl ⟨old, own, rfl⟩, old⟩
  · have gap := facetShift_gap proper
    have new : Entries.fresh c.alone.facets ≤ i := new
    rw [World.facet_above new, World.facet_above (by omega)]
    exact ⟨rfl, .nil, rfl⟩

/-- The number of the facet that the body works on. -/
theorem moves_facet :
    c.facetShift.Moves (Entries.fresh c.alone.facets) (Entries.fresh c.now.facets) := by
  rw [← facetShift_gap proper]
  exact c.facetShift.moves_new (Nat.le_refl _)

theorem worlds (name : String) : c.Worlds (c.alone.openFacet name) (c.now.openFacet name) where
  memories := proper.memories
  options := rfl
  options' := proper.leaves.options
  clauses _ _ := proper.clauses
  startClause := Nat.le_refl _
  freshClause := (clauseShift_gap proper).symm
  otherClauses _ _ _ := rfl
  facets := facets_setFacet (fun _ _ => proper.facets) proper.moves_facet ⟨rfl, .nil, rfl⟩
  entered := by
    simp only [World.openFacet, World.note, World.setFacet, Entries.fresh_insert]
    omega
  freshFacet := by
    have fresh := proper.moves_facet.max_succ (Nat.le_refl _)
    simp only [World.openFacet, World.note, World.setFacet, Entries.fresh_insert]
    rwa [← facetShift_gap proper] at fresh ⊢
  otherFacets j old other := by
    have elsewhere :=
      proper.moves_facet.ne_other (old.trans_eq (facetShift_gap proper).symm) other
    exact World.facet_setFacet_of_ne elsewhere _ _

end Company.Proper

/-! ## Running one facet -/

namespace World

/-- What the run of a body comes to for its facet. -/
def closeFacet (i : Nat) (name : String) (o : Outcome Value) : Outcome Nat :=
  match o with
  | (w, .ok _) => (w.finishFacet i, .ok i)
  | (w, .error (.aborted _ o _ text)) =>
    (((w.setFacet i (w.facet i).markExceptional).note .info .run
      s!"Facet '{name}' aborted: {abortMessage o text}").finishFacet i, .ok i)
  | (w, .error r) => (w, .error r)

theorem runFacet_eq (w : World) (name : String) (body : Nat → Code) :
    w.runFacet name body = closeFacet (Entries.fresh w.facets) name
      ((body (Entries.fresh w.facets)).run (w.openFacet name)) := rfl

end World

namespace Company

variable {c : Company}

/-- A facet ends in the same way alone and in company. -/
theorem Ends.closeFacet (proper : c.Proper) (name : String) {o o' : Outcome Value}
    (ends : c.Ends (Value.Renamed c.moves) o o') :
    c.Ends (fun i i' => i = Entries.fresh c.alone.facets ∧ i' = Entries.fresh c.now.facets)
      (World.closeFacet (Entries.fresh c.alone.facets) name o)
      (World.closeFacet (Entries.fresh c.now.facets) name o') := by
  rcases ends.ok_or_error with
    ⟨w, w', x, x', rfl, rfl, worlds, _⟩ | ⟨w, w', r, r', rfl, rfl, worlds, raised⟩
  · exact ⟨worlds.note _ _ _ _ _ _, .ok ⟨rfl, rfl⟩⟩
  · cases raised with
    | aborted moved =>
        have facets := worlds.facets _ _ proper.moves_facet
        have marked : c.Facets _ (w.facet _).markExceptional (w'.facet _).markExceptional :=
          ⟨facets.name, facets.tests, rfl⟩
        have ended := worlds.setFacet proper proper.moves_facet marked
        exact ⟨(ended.note _ _ _ _ _ _).note _ _ _ _ _ _, .ok ⟨rfl, rfl⟩⟩
    | error moved => exact ⟨worlds, .error (.error moved)⟩
    | interrupt moved => exact ⟨worlds, .error (.interrupt moved)⟩
    | misused moved => exact ⟨worlds, .error (.misused moved)⟩
    | duplicate moved => exact ⟨worlds, .error (.duplicate moved)⟩

theorem Alike.runFacet (proper : c.Proper) {body : Nat → Code} (name : String)
    (alike : c.Alike (body (Entries.fresh c.alone.facets)) (body (Entries.fresh c.now.facets))) :
    c.Ends (fun i i' => i = Entries.fresh c.alone.facets ∧ i' = Entries.fresh c.now.facets)
      (c.alone.runFacet name body) (c.now.runFacet name body) := by
  rw [World.runFacet_eq, World.runFacet_eq]
  exact (alike.run proper (proper.worlds name)).closeFacet proper name

namespace Worlds

variable {w w' : World} (worlds : c.Worlds w w')

include worlds

/-- A facet has the same results alone and in company. -/
theorem facetResult {i i' : Nat} (here : c.facetShift.Moves i i') :
    (w.facetResult i).Renamed c.moves (w'.facetResult i') where
  name := (worlds.facets i i' here).name
  exceptional := (worlds.facets i i' here).exceptional
  tests := map_related (worlds.facets i i' here).tests fun _ _ test =>
    ⟨test.1, (worlds.clauses _ _ test.2.1).result⟩

/-- What belongs to another is still there after the run. -/
theorem leaves {other : Holdings} (apart : c.own.Apart other)
    (aside : c.own.toReach.Apart c.common) (enclosed : c.alone.Encloses c.common other)
    (left : c.alone.Leaves c.now c.common other) : c.alone.Leaves w' c.common other where
  options := worlds.options'
  classes := worlds.heaps.classes'
  size := by
    have start := worlds.heaps.start
    rw [worlds.heaps.size]
    exact Nat.le_add_right_of_le start
  objects a inside := by
    have old := Nat.lt_of_lt_of_le (enclosed.lie a inside) left.size
    have foreign : a ∉ c.own.addresses := fun own =>
      inside.elim (aside.addresses a own) (apart.addresses a own)
    rw [worlds.heaps.others a old foreign]
    exact left.objects a inside
  names name inside := by
    have foreign : name ∉ c.own.names := fun own =>
      inside.elim (aside.names name own) (apart.names name own)
    rw [worlds.memories.others name foreign]
    exact left.names name inside
  freshClause := by
    rw [worlds.freshClause]
    exact Nat.le_add_right_of_le worlds.startClause
  clauses i inside := by
    have old := Nat.lt_of_lt_of_le (enclosed.clauses i inside).1 left.freshClause
    rw [worlds.otherClauses i old fun own => apart.clauses i own inside]
    exact left.clauses i inside
  freshFacet := by
    rw [worlds.freshFacet]
    exact Nat.le_add_right_of_le worlds.entered.le
  facets i inside := by
    have old := Nat.lt_of_lt_of_le (enclosed.facets i inside).1 left.freshFacet
    rw [worlds.otherFacets i old fun own => apart.facets i own inside]
    exact left.facets i inside

end Worlds

end Company

/-- A facet that was entered after a world, and whose clauses are of its party or were made after
that world. -/
structure World.Entered (w now : World) (own : Holdings) (i : Nat) : Prop where
  new : Entries.fresh w.facets ≤ i
  known : i < Entries.fresh now.facets
  clauses : ∀ test ∈ (now.facet i).tests, test.2 < Entries.fresh now.clauses ∧
    (test.2 ∈ own.clauses ∨ Entries.fresh w.clauses ≤ test.2)

namespace Company.Worlds

variable {c : Company} {w w' : World} (worlds : c.Worlds w w') (proper : c.Proper)

include worlds proper

theorem entered_facet : c.alone.Entered w' c.own (Entries.fresh c.now.facets) where
  new := proper.leaves.freshFacet
  known := by
    rw [worlds.freshFacet, ← facetShift_gap proper]
    exact Nat.add_lt_add_right worlds.entered _
  -- A clause that is not its own was made alone after the start, and so it was in company.
  clauses test inside := by
    have tests := (worlds.facets _ _ proper.moves_facet).tests
    obtain ⟨_, _, _, moves, below⟩ := (forall₂_mem tests).2 test inside
    refine ⟨(moves.lt_iff worlds.moves_fresh).mp below, moves.kept_or_new.imp_right fun new => ?_⟩
    exact Nat.le_trans (Nat.le_add_right _ _) new

/-- The run of a party leaves a facet alone that another party has entered. -/
theorem keeps_facet {other : Holdings} (apart : c.own.Apart other) {i : Nat}
    (before : c.alone.Entered c.now other i) : c.alone.Entered w' other i ∧
      w'.facetResult i = c.now.facetResult i := by
  have facet : w'.facet i = c.now.facet i := worlds.otherFacets i before.known fun own =>
    Nat.not_lt.mpr before.new (proper.encloses.facets i own).1
  have clause (test : TestName × Nat) (inside : test ∈ (c.now.facet i).tests) :
      w'.clause test.2 = c.now.clause test.2 := by
    obtain ⟨known, origin⟩ := before.clauses test inside
    refine worlds.otherClauses _ known fun own => ?_
    rcases origin with foreign | new
    · exact apart.clauses _ own foreign
    · exact Nat.not_lt.mpr new (proper.encloses.clauses _ own).1
  have growth : Entries.fresh c.now.clauses ≤ Entries.fresh w'.clauses := by
    rw [worlds.freshClause, ← clauseShift_gap proper]
    exact Nat.add_le_add_right worlds.startClause _
  refine ⟨⟨before.new, ?_, ?_⟩, ?_⟩
  · rw [worlds.freshFacet]
    refine Nat.lt_of_lt_of_le before.known ?_
    rw [← facetShift_gap proper]
    exact Nat.add_le_add_right worlds.entered.le _
  · rw [facet]
    exact fun test inside =>
      ⟨Nat.lt_of_lt_of_le (before.clauses test inside).1 growth, (before.clauses test inside).2⟩
  · simp only [World.facetResult, facet, Facet.map]
    congr 1
    exact List.map_congr_left fun test inside => by rw [clause test inside]

end Company.Worlds

end Assay
