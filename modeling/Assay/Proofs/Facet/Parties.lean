import Assay.Proofs.Facet.Isolation

/-! # Facets one after the other

The facets of parties that share no values which can change come out as they do alone, in whatever
order they run. A body that aborts changes nothing for the others, and what its tests had come to
before stands.
-/

namespace Assay

/-- The named body of a facet, with what is its own before it runs. -/
structure Party where
  name : String
  body : Nat → Code
  own : Holdings

namespace Holdings

theorem Apart.symm {own other : Holdings} (apart : own.Apart other) : other.Apart own where
  addresses a inside own := apart.addresses a own inside
  names name inside own := apart.names name own inside
  clauses i inside own := apart.clauses i own inside
  facets i inside own := apart.facets i own inside

end Holdings

namespace World

/-- Parties that share no values which can change. -/
structure Hosts (w : World) (common : Reach) (parties : List Party) : Prop where
  grounds : w.Grounds common
  encloses : ∀ p ∈ parties, w.Encloses common p.own
  aside : ∀ p ∈ parties, p.own.toReach.Apart common
  isolates : ∀ p ∈ parties, w.Isolates common p.own p.body
  apart : parties.Pairwise fun p q => p.own.Apart q.own

/-- All that the body of a facet raises is that a clause was aborted. -/
def OnlyAborts (w : World) (name : String) (body : Nat → Code) : Prop :=
  ∀ r, ((body (Entries.fresh w.facets)).run (w.openFacet name)).2 = .error r →
    ∃ a o cause text, r = .aborted a o cause text

/-- What the facet of a party comes to if nothing else runs. -/
def resultAlone (w : World) (p : Party) : FacetResult :=
  (w.runFacet p.name p.body).1.facetResult (Entries.fresh w.facets)

/-- The facet of a party has come to what it comes to alone, up to the addresses of objects. -/
def ResultOf (w now : World) (p : Party) (i : Nat) : Prop :=
  ∃ R : Renaming, R.Ordered ∧ (w.resultAlone p).Renamed R (now.facetResult i)

variable {w : World}

theorem OnlyAborts.runFacet {name : String} {body : Nat → Code} (aborts : w.OnlyAborts name body) :
    (w.runFacet name body).2 = .ok (Entries.fresh w.facets) := by
  rw [runFacet_eq]
  cases ended : (body (Entries.fresh w.facets)).run (w.openFacet name) with
  | mk w₁ result =>
      cases result with
      | ok v => rfl
      | error r =>
          obtain ⟨a, o, cause, text, rfl⟩ := aborts r (by rw [ended])
          rfl

theorem resultAlone_aborted {p : Party} {w₁ : World} {a : Address} {o : Operation}
    {cause : ClassName} {text : String}
    (aborted : (p.body (Entries.fresh w.facets)).run (w.openFacet p.name) =
      (w₁, .error (.aborted a o cause text))) :
    w.resultAlone p = (w₁.facetResult (Entries.fresh w.facets)).markExceptional := by
  rw [resultAlone, runFacet_eq, aborted]
  have marked := facet_setFacet_self w₁ (Entries.fresh w.facets)
    (w₁.facet (Entries.fresh w.facets)).markExceptional
  exact congrArg (Facet.map fun c => (w₁.clause c).result) marked

theorem leaves_refl (w : World) (common : Reach) (own : Holdings) : w.Leaves w common own where
  options := rfl
  classes := rfl
  size := Nat.le_refl _
  objects _ _ := rfl
  names _ _ := rfl
  freshClause := Nat.le_refl _
  clauses _ _ := rfl
  freshFacet := Nat.le_refl _
  facets _ _ := rfl

/-- A party that runs in a later world, which has left to it what is its own. -/
theorem Hosts.proper {common : Reach} {p : Party} {parties : List Party} (hosts : w.Hosts common parties)
    (inside : p ∈ parties) {now : World} (leaves : w.Leaves now common p.own) :
    Company.Proper ⟨common, p.own, w, now⟩ :=
  ⟨hosts.grounds, hosts.encloses p inside, leaves⟩

theorem Hosts.tail {common : Reach} {p : Party} {rest : List Party}
    (hosts : w.Hosts common (p :: rest)) : w.Hosts common rest where
  grounds := hosts.grounds
  encloses q inside := hosts.encloses q (List.mem_cons_of_mem _ inside)
  aside q inside := hosts.aside q (List.mem_cons_of_mem _ inside)
  isolates q inside := hosts.isolates q (List.mem_cons_of_mem _ inside)
  apart := hosts.apart.of_cons

/-- One facet in a later world: it comes to what it comes to alone, and what belongs to others stays
as it is. -/
theorem Hosts.runFacet {common : Reach} {p : Party} {parties : List Party}
    (hosts : w.Hosts common parties) (inside : p ∈ parties) (aborts : w.OnlyAborts p.name p.body)
    {now : World} (leaves : w.Leaves now common p.own) :
    ∃ now', now.runFacet p.name p.body = (now', .ok (Entries.fresh now.facets)) ∧
      Company.Worlds ⟨common, p.own, w, now⟩ (w.runFacet p.name p.body).1 now' := by
  have ends := (hosts.isolates p inside now leaves).runFacet (hosts.proper inside leaves) p.name
  have alone := aborts.runFacet
  obtain ⟨worlds, returns⟩ := ends
  dsimp only at returns worlds
  cases ended : now.runFacet p.name p.body with
  | mk now' result =>
      rw [ended] at worlds returns
      rw [alone] at returns
      cases returns with
      | ok numbers => exact ⟨now', by rw [numbers.2], worlds⟩

/-- Facets one after the other in a later world. Each is a new one, and what was entered by other
parties is kept. -/
theorem Hosts.runEach {common : Reach} {parties : List Party} (hosts : w.Hosts common parties)
    (aborts : ∀ p ∈ parties, w.OnlyAborts p.name p.body) {now : World}
    (leaves : ∀ p ∈ parties, w.Leaves now common p.own) :
    ∃ now' is, now.runEach (parties.map fun p => (p.name, p.body)) = (now', .ok is) ∧
      List.Forall₂ (w.ResultOf now') parties is ∧
      (∀ i ∈ is, Entries.fresh now.facets ≤ i) ∧ is.Nodup ∧
      ∀ (other : Holdings) (i : Nat), (∀ p ∈ parties, p.own.Apart other) →
        w.Entered now other i → now'.facetResult i = now.facetResult i := by
  induction parties generalizing now with
  | nil =>
      exact ⟨now, [], rfl, .nil, List.forall_mem_nil _, List.nodup_nil, fun _ _ _ _ => rfl⟩
  | cons p rest ih =>
      have first : p ∈ p :: rest := List.mem_cons_self
      obtain ⟨now₁, ran, worlds⟩ := hosts.runFacet first (aborts p first) (leaves p first)
      have proper := hosts.proper first (leaves p first)
      have apart (q : Party) (inside : q ∈ rest) : p.own.Apart q.own :=
        (List.pairwise_cons.mp hosts.apart).1 q inside
      have left (q : Party) (inside : q ∈ rest) : w.Leaves now₁ common q.own :=
        have inside' := List.mem_cons_of_mem p inside
        worlds.leaves (apart q inside) (hosts.aside p first) (hosts.encloses q inside')
          (leaves q inside')
      obtain ⟨now', is, rests, results, new, once, kept⟩ :=
        ih hosts.tail (fun q inside => aborts q (List.mem_cons_of_mem _ inside)) left
      -- The others leave alone what is entered before they run.
      have stays : now'.facetResult (Entries.fresh now.facets) =
          now₁.facetResult (Entries.fresh now.facets) :=
        kept p.own _ (fun q inside => (apart q inside).symm) (worlds.entered_facet proper)
      have result := worlds.facetResult proper.moves_facet
      have known : Entries.fresh now.facets < Entries.fresh now₁.facets :=
        (worlds.entered_facet proper).known
      have later (i : Nat) (inside : i ∈ is) : Entries.fresh now.facets < i :=
        Nat.lt_of_lt_of_le known (new i inside)
      refine ⟨now', Entries.fresh now.facets :: is, ?_, .cons ?_ results, ?_, ?_, ?_⟩
      · simp only [List.map_cons, World.runEach, ran, rests, Outcome.andThen]
      · exact ⟨_, Shift.ordered _, stays ▸ result⟩
      · exact List.forall_mem_cons.mpr ⟨Nat.le_refl _, fun i inside => (later i inside).le⟩
      · exact List.nodup_cons.mpr ⟨fun inside => Nat.lt_irrefl _ (later _ inside), once⟩
      · intro other i foreign entered
        obtain ⟨entered, same⟩ := worlds.keeps_facet proper (foreign p first) entered
        rw [← same]
        exact kept other i (fun q inside => foreign q (List.mem_cons_of_mem _ inside)) entered

theorem statuses_eq {now : World} {parties : List Party} {is : List Nat}
    (results : List.Forall₂ (w.ResultOf now) parties is) :
    (is.map now.facetResult).map FacetResult.status =
      (parties.map w.resultAlone).map FacetResult.status := by
  induction results with
  | nil => rfl
  | cons here _ ih =>
      obtain ⟨R, _, renamed⟩ := here
      simp only [List.map_cons, renamed.status] at ih ⊢
      rw [ih]

theorem Hosts.perm {common : Reach} {parties order : List Party} (hosts : w.Hosts common parties)
    (perm : order.Perm parties) : w.Hosts common order where
  grounds := hosts.grounds
  encloses p inside := hosts.encloses p (perm.mem_iff.mp inside)
  aside p inside := hosts.aside p (perm.mem_iff.mp inside)
  isolates p inside := hosts.isolates p (perm.mem_iff.mp inside)
  apart := (perm.pairwise_iff fun apart => apart.symm).mpr hosts.apart

end World

theorem Summary.ofStatuses_perm {ss ss' : List Status} (perm : ss.Perm ss') :
    ofStatuses ss = ofStatuses ss' := by
  simp only [ofStatuses, perm.count_eq]

/-- Facets of parties that share no values which can change come out, in whatever order they run, as
they do alone, one for each party, and the summary is the same in every order. A body that aborts is
no exception to this, and what its tests had come to before is what they come to in the end. -/
theorem runFacets_isolated {w : World} {common : Reach} {parties : List Party}
    (hosts : w.Hosts common parties) (aborts : ∀ p ∈ parties, w.OnlyAborts p.name p.body) :
    (∀ p ∈ parties, (w.runFacet p.name p.body).2 = .ok (Entries.fresh w.facets)) ∧
    (∀ p ∈ parties, ∀ w₁ a o cause text,
      (p.body (Entries.fresh w.facets)).run (w.openFacet p.name) =
        (w₁, .error (.aborted a o cause text)) →
      w.resultAlone p = (w₁.facetResult (Entries.fresh w.facets)).markExceptional) ∧
    ∀ order : List Party, order.Perm parties → ∃ w' is,
      w.runFacets (order.map fun p => (p.name, p.body)) =
        (w', .ok (is, Summary.ofFacets (parties.map w.resultAlone))) ∧
      is.Nodup ∧ List.Forall₂ (w.ResultOf w') order is := by
  refine ⟨fun p inside => (aborts p inside).runFacet,
    fun p _ w₁ a o cause text aborted => World.resultAlone_aborted aborted, fun order perm => ?_⟩
  obtain ⟨w', is, ran, results, _, once, _⟩ := (hosts.perm perm).runEach
    (fun p inside => aborts p (perm.mem_iff.mp inside)) fun p _ => w.leaves_refl common p.own
  have summary : Summary.ofFacets (is.map w'.facetResult) =
      Summary.ofFacets (parties.map w.resultAlone) := by
    rw [Summary.ofFacets, World.statuses_eq results]
    exact Summary.ofStatuses_perm ((perm.map _).map _)
  refine ⟨w'.note .info .run (Summary.ofFacets (is.map w'.facetResult)).text, is, ?_, once, results⟩
  rw [World.runFacets, ran, ← summary]
  rfl

/-- A world in which a list has a name. -/
def listWorld : World where
  memory :=
    { heap :=
        { classes := Standard.classes []
          objects := #[{ cls := "tuple", body := .sequence .tuple [] },
            { cls := "list", body := .sequence .list [.int 1] }] }
      names := [("kept", .ref 1)] }

/-- Compares the list that has a name with one that it makes. -/
def listParty : Party where
  name := "list"
  body i := .register i none (fun c =>
    .call c .that .code (fun _ => .load fun m => .give ((m.named? "kept").getD .null))
      (.call c (.check .is) .code (fun _ => .load fun m =>
          .save (m.alloc { cls := "list", body := .sequence .list [.int 1] }).1
            (.give (.ref m.heap.objects.size)))
        (.give .null) .fail) .fail) .fail
  own := { addresses := {1}, names := {"kept"}, clauses := ∅, facets := ∅ }

/-- Has a test that passes, and then one that raises. -/
def brokenParty : Party where
  name := "broken"
  body i := .register i (some (.text "whole")) (fun c =>
    .call c .that .code (fun _ => .give (.int 1))
      (.call c (.check .is) .code (fun _ => .give (.int 1))
        (.register i (some (.text "broken")) (fun c =>
          .call c .that .code (fun _ => .raise (.typeError "broken") .fail) (.give .null) .fail)
          .fail) .fail) .fail) .fail
  own := { addresses := ∅, names := ∅, clauses := ∅, facets := ∅ }

theorem listWorld_grounds : listWorld.Grounds ⟨{0}, ∅⟩ where
  fair := Standard.fair_classes fun _ inside => absurd inside List.not_mem_nil
  root := ⟨rfl, rfl, rfl, rfl⟩
  empty := rfl

theorem listWorld_encloses_list : listWorld.Encloses ⟨{0}, ∅⟩ listParty.own where
  lie := by rintro a (rfl | rfl) <;> decide
  objects := by
    rintro a (rfl | rfl)
    · exact ⟨rfl, .sequence .nil, .nil, .nil⟩
    · exact ⟨rfl, .sequence (.cons (.datum rfl) .nil), .nil, .nil⟩
  names := by
    rintro name (inside | rfl) v bound
    · exact absurd inside (Set.notMem_empty name)
    · cases bound
      exact .ref ⟨.inr rfl, rfl⟩
  clauses i inside := absurd inside (Set.notMem_empty i)
  facets i inside := absurd inside (Set.notMem_empty i)

theorem listWorld_encloses_broken : listWorld.Encloses ⟨{0}, ∅⟩ brokenParty.own where
  lie := by rintro a (rfl | inside) <;> [decide; exact absurd inside (Set.notMem_empty a)]
  objects := by
    rintro a (rfl | inside)
    · exact ⟨rfl, .sequence .nil, .nil, .nil⟩
    · exact absurd inside (Set.notMem_empty a)
  names name inside := absurd inside (by simp [brokenParty])
  clauses i inside := absurd inside (Set.notMem_empty i)
  facets i inside := absurd inside (Set.notMem_empty i)

theorem listWorld_isolates_list : listWorld.Isolates ⟨{0}, ∅⟩ listParty.own listParty.body := by
  intro now leaves
  have proper : Company.Proper ⟨⟨{0}, ∅⟩, listParty.own, listWorld, now⟩ :=
    ⟨listWorld_grounds, listWorld_encloses_list, leaves⟩
  refine .register proper.moves_facet (fun i i' here => ?_) fun _ _ => .fail
  refine .call here (fun _ _ _ => .load fun m m' memories => .give ?_)
    (.call here (fun _ _ _ => .load fun m m' memories => ?_) (.give (.datum rfl)) fun _ _ => .fail)
    fun _ _ => .fail
  · have kept := memories.names "kept" (.inr rfl)
    generalize m.named? "kept" = v, m'.named? "kept" = v' at kept ⊢
    cases kept with
    | none => exact .datum rfl
    | some value => exact value
  · exact .save (memories.alloc proper ⟨rfl, .sequence (.cons (.datum rfl) .nil), .nil, .nil⟩)
      (.give (.ref memories.heaps.fresh))

theorem listWorld_isolates_broken :
    listWorld.Isolates ⟨{0}, ∅⟩ brokenParty.own brokenParty.body := by
  intro now leaves
  have proper : Company.Proper ⟨⟨{0}, ∅⟩, brokenParty.own, listWorld, now⟩ :=
    ⟨listWorld_grounds, listWorld_encloses_broken, leaves⟩
  refine .register proper.moves_facet (fun i i' here => ?_) fun _ _ => .fail
  refine .call here (fun _ _ _ => .give (.datum rfl)) (.call here (fun _ _ _ => .give (.datum rfl))
    ?_ fun _ _ => .fail) fun _ _ => .fail
  refine .register proper.moves_facet (fun j j' there => ?_) fun _ _ => .fail
  exact .call there (fun _ _ _ => .raise proper (.text _ _) fun _ _ => .fail) (.give (.datum rfl))
    fun _ _ => .fail

theorem listWorld_hosts : listWorld.Hosts ⟨{0}, ∅⟩ [listParty, brokenParty] where
  grounds := listWorld_grounds
  encloses := List.forall_mem_cons.mpr
    ⟨listWorld_encloses_list, List.forall_mem_singleton.mpr listWorld_encloses_broken⟩
  aside := List.forall_mem_cons.mpr ⟨⟨by simp [listParty], by simp⟩,
    List.forall_mem_singleton.mpr ⟨by simp [brokenParty], by simp⟩⟩
  isolates := List.forall_mem_cons.mpr
    ⟨listWorld_isolates_list, List.forall_mem_singleton.mpr listWorld_isolates_broken⟩
  apart := List.pairwise_pair.mpr ⟨⟨by simp [brokenParty], by simp [brokenParty]⟩,
    by simp [brokenParty], by simp [brokenParty]⟩

theorem listWorld_onlyAborts : ∀ p ∈ [listParty, brokenParty], listWorld.OnlyAborts p.name p.body := by
  refine List.forall_mem_cons.mpr
    ⟨fun r raised => ?_, List.forall_mem_singleton.mpr fun r raised => ?_⟩
  · have ended : ((listParty.body 0).run (listWorld.openFacet listParty.name)).2 = .ok .null := by
      decide +kernel
    cases ended.symm.trans raised
  · have ended : ((brokenParty.body 0).run (listWorld.openFacet brokenParty.name)).2 =
      .error (.aborted 5 .that "TypeError" "TypeError: broken") := rfl
    cases ended.symm.trans raised
    exact ⟨_, _, _, _, rfl⟩

/-- One of two facets passes, also after the other one was ended by an exception. -/
theorem runFacets_isolated_broken :
    listWorld.Hosts ⟨{0}, ∅⟩ [listParty, brokenParty] ∧
    (∀ p ∈ [listParty, brokenParty], listWorld.OnlyAborts p.name p.body) ∧
    ∃ w' is, listWorld.runFacets ([brokenParty, listParty].map fun p => (p.name, p.body)) =
        (w', .ok (is, { passed := 1, failed := 1 })) ∧
      is.Nodup ∧ List.Forall₂ (listWorld.ResultOf w') [brokenParty, listParty] is := by
  have isolated := (runFacets_isolated listWorld_hosts listWorld_onlyAborts).2.2
    [brokenParty, listParty] (.swap _ _ _)
  have summary : Summary.ofFacets ([listParty, brokenParty].map listWorld.resultAlone) =
      { passed := 1, failed := 1 } := by decide +kernel
  rw [summary] at isolated
  exact ⟨listWorld_hosts, listWorld_onlyAborts, isolated⟩

end Assay
