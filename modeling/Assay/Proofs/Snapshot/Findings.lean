import Assay.Proofs.Likeness.Found
import Assay.Proofs.Snapshot.Compared

/-! # What a comparison tells

Nodes whose children stand under the same labels are compared child by child.  The comparison comes
to its end if those of the children do, and tells what these tell, under their labels.
-/

namespace Assay

namespace Snapshot

variable (h : Heap)

/-- The comparison of two trees comes to its end and tells the given differences. -/
def Finds (s t : Snapshot) (ls : List (List Value × String × String)) : Prop :=
  ∃ r, (compare h s t).2 = .ok r ∧ leaves r = ls ∧ (r = none ↔ ls = [])

/-- Children stand under the same labels, and tell the given differences one after the other. -/
inductive FindsEach : List (Key × Snapshot) → List (Key × Snapshot) →
    List (List Value × String × String) → Prop where
  | nil : FindsEach [] [] []
  | cons {k s t es es' ls ls'} : Finds h s t ls → FindsEach es es' ls' →
      FindsEach ((k, s) :: es) ((k, t) :: es') (placedUnder k.value ls ++ ls')

/-- Labels can be told apart, and are found where they are entered. -/
structure LabelsTold (ks : List Key) : Prop where
  current : ∀ k ∈ ks, h.Current k
  total : ∀ k ∈ ks, ∀ k' ∈ ks, ∃ b, k.isFor h.equal k' = .ok b
  apart : ks.Pairwise fun k k' => k'.isFor h.equal k ≠ .ok true

variable {h} {s t : Snapshot} {es es' ds ds' : List (Key × Snapshot)}
  {ls ls' : List (List Value × String × String)}

theorem Agrees.finds (agrees : Agrees h s t) : Finds h s t [] :=
  ⟨none, agrees, rfl, by simp⟩

theorem finds_leaf {x y : String} (told : s.summary h = .ok x) (told' : t.summary h = .ok y)
    (heads : compareHeads h s t = some ((s.leafDifference h t).map some)) :
    Finds h s t [([], x, y)] := by
  obtain ⟨head, children⟩ := s
  have difference : (Snapshot.node head children).leafDifference h t =
      .ok (.difference x y head.label) := by
    simp only [leafDifference, told, told', bind, Except.bind]
    rfl
  refine ⟨some (.difference x y head.label), ?_, leafDifferences_difference x y head.label, by simp⟩
  simp only [compare, heads, difference, Except.map]

theorem FindsEach.append (first : FindsEach h es es' ls) (second : FindsEach h ds ds' ls') :
    FindsEach h (es ++ ds) (es' ++ ds') (ls ++ ls') := by
  induction first with
  | nil => exact second
  | cons here _ ih =>
      rw [List.append_assoc]
      exact .cons here ih

theorem FindsEach.keys (each : FindsEach h es es' ls) : es'.map (·.1) = es.map (·.1) := by
  induction each with
  | nil => rfl
  | cons _ _ ih => simp only [List.map_cons, ih]

theorem LabelsTold.find? (told : LabelsTold h (es.map (·.1))) {e : Key × Snapshot}
    (inside : e ∈ es) : h.find? e.1.value es = .ok (some e.2) := by
  have among {e' : Key × Snapshot} (member : e' ∈ es) : e'.1 ∈ es.map (·.1) :=
    List.mem_map_of_mem member
  have total : ∃ r, Entries.search (e.1.isFor h.equal) es = .ok r :=
    Entries.search_total fun e' member => told.total e.1 (among inside) e'.1 (among member)
  obtain ⟨r, found⟩ := total
  rw [find?_current (told.current e.1 (among inside)), found,
    search_own (List.pairwise_map.mp told.apart) inside found]

theorem FindsEach.under (each : FindsEach h es es' ls) {step : Value → Noted (Option Snapshot)}
    (steps : ∀ k s t, (k, s) ∈ es → (k, t) ∈ es' → (step k.value).2 = (compare h s t).2) :
    (∀ k ∈ es.map (·.1), ∃ r, (step k.value).2 = .ok r) ∧
      (((es.map (·.1)).filterMap (given step)).flatMap fun d =>
        placedUnder d.1.value d.2.leafDifferences) = ls ∧
      ((es.map (·.1)).filterMap (given step) = [] ↔ ls = []) := by
  induction each with
  | nil => simp
  | @cons k s t es es' ls ls' here _ ih =>
      obtain ⟨r, found, told, empty⟩ := here
      obtain ⟨come, whole, nothing⟩ := ih fun k' s' t' inside inside' =>
        steps k' s' t' (List.mem_cons_of_mem _ inside) (List.mem_cons_of_mem _ inside')
      have step_eq : (step k.value).2 = .ok r :=
        (steps k s t List.mem_cons_self List.mem_cons_self).trans found
      rw [List.map_cons, List.forall_mem_cons]
      refine ⟨⟨⟨r, step_eq⟩, come⟩, ?_⟩
      cases r with
      | none =>
          have lost : given step k = none := by simp [given, step_eq, Except.toOption]
          rw [List.filterMap_cons_none lost, empty.mp rfl]
          exact ⟨whole, nothing⟩
      | some d =>
          have gained : given step k = some (k, d) := by
            simp [given, step_eq, Except.toOption]
          have more : ls ≠ [] := fun nil => Option.some_ne_none d (empty.mpr nil)
          rw [List.filterMap_cons_some gained, List.flatMap_cons, whole]
          refine ⟨by rw [← told]; rfl, ?_⟩
          simp [placedUnder, more]

/-- Differences between children make up a difference, if there are any. -/
theorem composite_finds (made : ∀ n, NodeOf n s → Made n)
    (fresh : s.head.alreadyReferenced = false)
    (among : ∀ d ∈ ds, ∃ e ∈ s.children, d.1 = e.1)
    (named : ds ≠ [] → ∃ name, noteName h s.head = .ok name) :
    ∃ r, (composite h s ds).2 = .ok r ∧
      leaves r = (ds.flatMap fun d => placedUnder d.1.value d.2.leafDifferences) ∧
      (r = none ↔ ds = []) := by
  by_cases empty : ds = []
  · subst empty
    exact ⟨none, rfl, rfl, by simp⟩
  · obtain ⟨name, told⟩ := named empty
    have labels (type : s.head.type = entryClass) (d : Key × Snapshot) (inside : d ∈ ds) :
        d.1 = .text "key" ∨ d.1 = .text "value" := by
      obtain ⟨e, own, same⟩ := among d inside
      obtain ⟨k, v, children⟩ := (made s .self).entry type fresh
      simp only [children, List.mem_cons, List.not_mem_nil, or_false] at own
      rw [same]
      exact own.imp (congrArg Prod.fst) (congrArg Prod.fst)
    obtain ⟨r, result, listed, nothing, _⟩ := (composed made fresh labels).total fun f raised => by
      cases told.symm.trans raised
    exact ⟨r, result, listed, nothing⟩

/-- Children that stand under the same labels are compared one by one. -/
theorem FindsEach.compareChildren (each : FindsEach h es es' ls)
    (told : LabelsTold h (es.map (·.1))) :
    ∃ ds, (compareChildren h (candidates h es) es').2 = .ok ds ∧
      (ds.flatMap fun d => placedUnder d.1.value d.2.leafDifferences) = ls ∧
      (ds = [] ↔ ls = []) ∧ ∀ d ∈ ds, ∃ e ∈ es, d.1 = e.1 := by
  have told' : LabelsTold h (es'.map (·.1)) := each.keys ▸ told
  let step := compareUnder h (candidates h es) es'
  have under (k : Key) (c d : Snapshot) (left : (k, c) ∈ es) (right : (k, d) ∈ es') :
      (step k.value).2 = (compare h c d).2 := by
    simp only [step, compareUnder, find?_candidates, told.find? left, told'.find? right,
      Except.map, Option.map]
  obtain ⟨come, whole, nothing⟩ := each.under under
  have no_extra : extraLabels h (candidates h es) es' = .ok [] := by
    apply extraLabels_nil
    intro e inside
    have listed : e.1 ∈ es.map (·.1) := each.keys ▸ List.mem_map_of_mem inside
    obtain ⟨e', own, same⟩ := List.mem_map.mp listed
    exact ⟨_, by rw [find?_candidates, ← same, told.find? own]; rfl⟩
  have asked (k k' : Key) (inside : k ∈ es.map (·.1)) (inside' : k' ∈ es.map (·.1)) (f : Fault)
      (raised : k.isFor h.equal k' = .error f) : False := by
    obtain ⟨b, found⟩ := told.total k inside k' inside'
    cases found.symm.trans raised
  have steps (k : Key) (inside : k ∈ es.map (·.1)) (f : Fault)
      (raised : (step k.value).2 = .error f) : False := by
    obtain ⟨r, found⟩ := come k inside
    cases found.symm.trans raised
  have delivers : Delivers (fun _ => False) _
      (compareLabels h step [] ((es.map (·.1)).map (·.value))).2 :=
    compareLabels_delivers told.current steps asked (fun _ => id) (by simp) told.apart (by simp)
  obtain ⟨ds, compared, _, rfl⟩ := delivers.total fun _ => id
  have labels : (candidates h es).map (·.1.value) = (es.map (·.1)).map (·.value) := by
    rw [candidates_eq, List.map_map, List.map_map]
    rfl
  refine ⟨_, ?_, whole, nothing, fun d inside => ?_⟩
  · simp only [Snapshot.compareChildren, no_extra, labels, List.append_nil]
    exact compared
  · obtain ⟨k, member, gained⟩ := List.mem_filterMap.mp inside
    obtain ⟨e, own, rfl⟩ := List.mem_map.mp member
    obtain ⟨_, _, rfl⟩ := Option.map_eq_some_iff.mp gained
    exact ⟨e, own, rfl⟩

/-- Nodes that are looked into tell what their children tell. -/
theorem Opened.finds (on : Opened s t) (made : ∀ n, NodeOf n s → Made n)
    (told : LabelsTold h (s.children.map (·.1))) (each : FindsEach h s.children t.children ls)
    (named : ls ≠ [] → ∃ name, noteName h s.head = .ok name) : Finds h s t ls := by
  obtain ⟨ds, compared, whole, nothing, among⟩ := each.compareChildren told
  obtain ⟨r, result, listed, empty⟩ := composite_finds made on.fresh.1 among fun some =>
    named (nothing.not.mp some)
  refine ⟨r, ?_, listed.trans whole, empty.trans nothing⟩
  obtain ⟨head, children⟩ := s
  simp only [compare, opened_iff.mpr on]
  rcases pair : Snapshot.compareChildren h (candidates h children) t.children with ⟨notes, f | ds'⟩
  · rw [Snapshot.children, pair] at compared
    cases compared
  · rw [Snapshot.children, pair] at compared
    cases compared
    exact result

end Snapshot

end Assay
