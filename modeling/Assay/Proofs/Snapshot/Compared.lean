import Assay.Proofs.Snapshot.Mismatch

/-! # Differences are listed where trees differ

A comparison of two trees lists the positions at which they differ, each under its label and in the
order of the labels, as long as labels are found again where they were entered.
-/

namespace Assay

namespace Snapshot

variable {h : Heap} {s t n : Snapshot} {e e' : Key × Snapshot} {f : Fault}

/-! ## Labels that are looked up -/

theorem search_error {κ ν ε : Type} {isKey : κ → Except ε Bool} {es : List (κ × ν)} {f : ε}
    (raised : Entries.search isKey es = .error f) : ∃ e ∈ es, isKey e.1 = .error f := by
  induction es with
  | nil => cases raised
  | cons e rest ih =>
      simp only [Entries.search] at raised
      split at raised
      · cases raised
        exact ⟨e, List.mem_cons_self, ‹_›⟩
      · cases raised
      · obtain ⟨e', later, failed⟩ := ih raised
        exact ⟨e', List.mem_cons_of_mem _ later, failed⟩

theorem enter_error {κ ν ε : Type} {isKey : κ → Except ε Bool} {key : κ} {x : ν}
    {es : List (κ × ν)} {f : ε} (raised : Entries.enter isKey key x es = .error f) :
    ∃ e ∈ es, isKey e.1 = .error f := by
  induction es with
  | nil => cases raised
  | cons e rest ih =>
      simp only [Entries.enter] at raised
      split at raised
      · cases raised
        exact ⟨e, List.mem_cons_self, ‹_›⟩
      · cases raised
      · cases later : Entries.enter isKey key x rest with
        | ok es' => simp [later, Except.map] at raised
        | error f' =>
            simp only [later, Except.map, Except.error.injEq] at raised
            obtain ⟨e', inside, failed⟩ := ih (raised ▸ later)
            exact ⟨e', List.mem_cons_of_mem _ inside, failed⟩

section Lookup

variable {ν : Type} {es : List (Key × ν)} {k : Key}

theorem find?_current (current : h.Current k) (es : List (Key × ν)) :
    h.find? k.value es = Entries.search (k.isFor h.equal) es := by
  have now : h.key k.value = .ok k := current
  simp only [Heap.find?, Heap.under?, now]

theorem find?_error (current : h.Current k) (raised : h.find? k.value es = .error f) :
    ∃ e ∈ es, k.isFor h.equal e.1 = .error f :=
  search_error (find?_current current es ▸ raised)

theorem find?_none (current : h.Current k) (absent : h.find? k.value es = .ok none) :
    ∀ e ∈ es, k.isFor h.equal e.1 = .ok false :=
  Entries.search_none (find?_current current es ▸ absent)

theorem find?_some (current : h.Current k) {x : ν} (found : h.find? k.value es = .ok (some x)) :
    ∃ e ∈ es, e.2 = x := by
  obtain ⟨k', inside, _⟩ := Entries.search_ok (find?_current current es ▸ found)
  exact ⟨(k', x), inside, rfl⟩

theorem search_own {e : Key × ν} {r : Option ν}
    (apart : es.Pairwise fun e e' => e'.1.isFor h.equal e.1 ≠ .ok true) (inside : e ∈ es)
    (found : Entries.search (e.1.isFor h.equal) es = .ok r) : r = some e.2 := by
  induction es with
  | nil => cases inside
  | cons e₁ rest ih =>
      obtain ⟨first, later⟩ := List.pairwise_cons.mp apart
      simp only [Entries.search] at found
      rcases List.mem_cons.mp inside with rfl | inside
      · simpa [Heap.isFor_self] using found.symm
      · split at found
        · cases found
        · exact absurd ‹_› (first e inside)
        · exact ih later inside found

end Lookup

/-- Labels that have been kept are different values. -/
theorem values_nodup {ks : List Key} (current : ∀ k ∈ ks, h.Current k)
    (apart : ks.Pairwise fun k k' => k'.isFor h.equal k ≠ .ok true) :
    (ks.map (·.value)).Nodup := by
  refine List.pairwise_map.mpr (apart.imp_of_mem fun {k k'} inside inside' apart same => ?_)
  have now : h.key k.value = .ok k := current k inside
  have now' : h.key k'.value = .ok k' := current k' inside'
  rw [same, now'] at now
  exact apart (Except.ok.inj now ▸ Heap.isFor_self _)

namespace LabelsKept

theorem find? (kept : LabelsKept h s) (inside : e ∈ s.children) {r : Option Snapshot}
    (found : h.find? e.1.value s.children = .ok r) : r = some e.2 := by
  rw [find?_current (kept.current e inside)] at found
  exact search_own kept.apart inside found

theorem unique (kept : LabelsKept h s) (inside : e ∈ s.children) (inside' : e' ∈ s.children)
    (same : e.1.value = e'.1.value) : e = e' := by
  have nodup := values_nodup (List.forall_mem_map.mpr kept.current)
    (List.pairwise_map.mpr kept.apart)
  rw [List.map_map] at nodup
  exact List.inj_on_of_nodup_map nodup inside inside' same

end LabelsKept

/-! ## Positions under a label -/

section Under

variable {d : Snapshot} {p q : List Value} {x y : String}

theorem Comparable.mismatch_under (comparable : Comparable h s t) (on : Opened s t)
    (inside : e ∈ s.children) (found : h.find? e.1.value t.children = .ok (some d)) :
    Mismatch h s t (e.1.value :: p) x y ↔ Mismatch h e.2 d p x y := by
  have kept := comparable.kept s (.inl .self)
  refine ⟨fun mismatch => ?_, .under on inside found⟩
  generalize path : e.1.value :: p = p' at mismatch
  cases mismatch with
  | clash => cases path
  | missing _ own absent _ =>
      obtain ⟨same, rfl⟩ := List.cons.inj path
      cases (same ▸ found).symm.trans absent
  | surplus _ other absent _ =>
      obtain ⟨same, rfl⟩ := List.cons.inj path
      cases kept.find? inside (same ▸ absent)
  | under _ own found' further =>
      obtain ⟨same, rfl⟩ := List.cons.inj path
      cases kept.unique inside own same
      cases found.symm.trans found'
      exact further

theorem Comparable.mismatch_missing (comparable : Comparable h s t) (on : Opened s t)
    (inside : e ∈ s.children) (absent : h.find? e.1.value t.children = .ok none) :
    Mismatch h s t (e.1.value :: p) x y ↔ Lack h e.2 p x ∧ y = missingText := by
  have kept := comparable.kept s (.inl .self)
  constructor
  · intro mismatch
    generalize path : e.1.value :: p = p' at mismatch
    cases mismatch with
    | clash => cases path
    | missing _ own _ lack =>
        obtain ⟨same, rfl⟩ := List.cons.inj path
        cases kept.unique inside own same
        exact ⟨lack, rfl⟩
    | surplus _ other absent _ =>
        obtain ⟨same, rfl⟩ := List.cons.inj path
        cases kept.find? inside (same ▸ absent)
    | under _ own found _ =>
        obtain ⟨same, rfl⟩ := List.cons.inj path
        cases (same ▸ absent).symm.trans found
  · rintro ⟨lack, rfl⟩
    exact .missing on inside absent lack

theorem Comparable.mismatch_surplus (comparable : Comparable h s t) (on : Opened s t)
    (inside : e ∈ t.children) (absent : h.find? e.1.value s.children = .ok none) :
    Mismatch h s t (e.1.value :: p) x y ↔ x = missingText ∧ Lack h e.2 p y := by
  have own {e' : Key × Snapshot} (inside' : e' ∈ s.children)
      (same : e.1.value = e'.1.value) : False := by
    cases (comparable.kept s (.inl .self)).find? inside' (same ▸ absent)
  constructor
  · intro mismatch
    generalize path : e.1.value :: p = p' at mismatch
    cases mismatch with
    | clash => cases path
    | missing _ there => exact (own there (List.cons.inj path).1).elim
    | under _ there => exact (own there (List.cons.inj path).1).elim
    | surplus _ other _ lack =>
        obtain ⟨same, rfl⟩ := List.cons.inj path
        cases (comparable.kept t (.inr .self)).unique inside other same
        exact ⟨rfl, lack⟩
  · rintro ⟨rfl, lack⟩
    exact .surplus on inside absent lack

end Under

variable (h) in
/-- What is told under a label is what differs there. -/
abbrev ListsUnder (s t : Snapshot) (label : Value) : Option Snapshot → Prop :=
  Lists (fun p => Mismatch h s t (label :: p))
    fun p q => Before h s t (label :: p) (label :: q)

theorem Comparable.under_own (comparable : Comparable h s t) (on : Opened s t)
    (inside : e ∈ s.children)
    (each : ∀ e' ∈ t.children, Reported h e.2 e'.2 (compare h e.2 e'.2).2) :
    Delivers (Unanswered h s t) (ListsUnder h s t e.1.value)
      (compareUnder h (candidates h s.children) t.children e.1.value).2 := by
  have kept := comparable.kept s (.inl .self)
  have current := kept.current e inside
  unfold compareUnder
  rw [find?_candidates]
  cases own : h.find? e.1.value s.children with
  | error f =>
      obtain ⟨e', inside', raised⟩ := find?_error current own
      exact .error (.label (.inl .self) (.inl .self) inside inside' raised)
  | ok r =>
      cases kept.find? inside own
      cases other : h.find? e.1.value t.children with
      | error f =>
          obtain ⟨e', inside', raised⟩ := find?_error current other
          exact .error (.label (.inl .self) (.inr .self) inside inside' raised)
      | ok r =>
          cases r with
          | none =>
              refine (comparable.missing (fun m inner => .inl (inner.child inside)) false).map
                (fun _ => id) ?_
              rintro d _ ⟨telling, p, x, lack, one⟩
              refine lists_one telling one fun p' x' y' => ?_
              rw [comparable.mismatch_missing on inside other, lack]
              simp [and_assoc]
          | some d =>
              obtain ⟨e', inside', rfl⟩ := find?_some current other
              refine (each e' inside').imp (fun f asked => asked.under inside inside') ?_
              intro r _ lists
              exact ⟨fun p x y => (lists.exact p x y).trans
                  (comparable.mismatch_under on inside other).symm,
                lists.ordered.imp fun before => .under inside other before, lists.telling⟩

theorem Comparable.under_other (comparable : Comparable h s t) (on : Opened s t)
    (inside : e ∈ t.children) (absent : h.find? e.1.value s.children = .ok none) :
    Delivers (Unanswered h s t) (ListsUnder h s t e.1.value)
      (compareUnder h (candidates h s.children) t.children e.1.value).2 := by
  have kept := comparable.kept t (.inr .self)
  have current := kept.current e inside
  unfold compareUnder
  rw [find?_candidates, absent]
  cases own : h.find? e.1.value t.children with
  | error f =>
      obtain ⟨e', inside', raised⟩ := find?_error current own
      exact .error (.label (.inr .self) (.inr .self) inside inside' raised)
  | ok r =>
      cases kept.find? inside own
      refine (comparable.missing (fun m inner => .inr (inner.child inside)) true).map
        (fun _ => id) ?_
      rintro d _ ⟨telling, p, x, lack, one⟩
      refine lists_one telling one fun p' x' y' => ?_
      rw [comparable.mismatch_surplus on inside absent, lack]
      simp [and_left_comm]

/-! ## Labels in order -/

theorem lacks_iff {es : List (Key × Snapshot)} {k : Key} :
    lacks h es k ↔ h.find? k.value es = .ok none := by
  unfold lacks
  split <;> simp_all

theorem mem_labelOrder {k : Key} : k ∈ labelOrder h s t ↔ (∃ e ∈ s.children, e.1 = k) ∨
    ∃ e ∈ t.children, e.1 = k ∧ h.find? k.value s.children = .ok none := by
  unfold labelOrder
  rw [List.mem_append, List.mem_map, List.mem_filter, List.mem_map, lacks_iff]
  refine or_congr_right ⟨?_, ?_⟩
  · rintro ⟨⟨e, inside, rfl⟩, absent⟩
    exact ⟨e, inside, rfl, absent⟩
  · rintro ⟨e, inside, rfl, absent⟩
    exact ⟨⟨e, inside, rfl⟩, absent⟩

theorem Comparable.order_current (comparable : Comparable h s t) :
    ∀ k ∈ labelOrder h s t, h.Current k := by
  intro k inside
  rcases mem_labelOrder.mp inside with ⟨e, own, rfl⟩ | ⟨e, other, rfl, _⟩
  · exact (comparable.kept s (.inl .self)).current e own
  · exact (comparable.kept t (.inr .self)).current e other

theorem Comparable.order_apart (comparable : Comparable h s t) :
    (labelOrder h s t).Pairwise fun k k' => k'.isFor h.equal k ≠ .ok true := by
  refine List.pairwise_append.mpr ⟨List.pairwise_map.mpr (comparable.kept s (.inl .self)).apart,
    (List.pairwise_map.mpr (comparable.kept t (.inr .self)).apart).filter _, ?_⟩
  intro k own k' other same
  obtain ⟨e, inside, rfl⟩ := List.mem_map.mp own
  have last : k' ∈ labelOrder h s t := List.mem_append_right _ other
  have absent : h.find? k'.value s.children = .ok none := lacks_iff.mp (List.mem_filter.mp other).2
  cases same.symm.trans (find?_none (comparable.order_current k' last) absent e inside)

section Labels

variable {raises : Fault → Prop} {K : Key → Prop}

theorem extraLabels_delivers (raises : Fault → Prop) (es es' : List (Key × Snapshot))
    (asked : ∀ e ∈ es', ∀ f, h.find? e.1.value es = .error f → raises f) :
    Delivers raises (fun extra => extra = ((es'.map (·.1)).filter (lacks h es)).map (·.value) ∧
      ∀ e ∈ es', ∃ r, h.find? e.1.value es = .ok r) (extraLabels h (candidates h es) es') := by
  induction es' with
  | nil => exact .ok ⟨rfl, by simp⟩
  | cons e rest ih =>
      obtain ⟨here, others⟩ := List.forall_mem_cons.mp asked
      have later := ih others
      simp only [extraLabels, find?_candidates]
      cases found : h.find? e.1.value es with
      | error f => exact .error (here f found)
      | ok r =>
          cases r with
          | none =>
              refine later.map (fun _ => id) fun extra _ same => ?_
              exact ⟨by simp [same.1, lacks, found], List.forall_mem_cons.mpr ⟨⟨_, found⟩, same.2⟩⟩
          | some c =>
              refine later.imp (fun _ => id) fun extra _ same => ?_
              exact ⟨by simp [same.1, lacks, found], List.forall_mem_cons.mpr ⟨⟨_, found⟩, same.2⟩⟩

/-- What a comparison has given under a label. -/
def given (step : Value → Noted (Option Snapshot)) (k : Key) : Option (Key × Snapshot) :=
  ((step k.value).2.toOption.bind id).map fun d => (k, d)

theorem compareLabels_delivers {step : Value → Noted (Option Snapshot)} {ks : List Key}
    {found : List (Key × Snapshot)} (current : ∀ k ∈ ks, h.Current k)
    (steps : ∀ k ∈ ks, ∀ f, (step k.value).2 = .error f → raises f)
    (asked : ∀ k k', K k → K k' → ∀ f, k.isFor h.equal k' = .error f → raises f)
    (among : ∀ k ∈ ks, K k) (filed : ∀ e ∈ found, K e.1)
    (apart : ks.Pairwise fun k k' => k'.isFor h.equal k ≠ .ok true)
    (new : ∀ k ∈ ks, ∀ e ∈ found, k.isFor h.equal e.1 ≠ .ok true) :
    Delivers raises (fun ds => (∀ k ∈ ks, ∃ r, (step k.value).2 = .ok r) ∧
      ds = found ++ ks.filterMap (given step))
      (compareLabels h step found (ks.map (·.value))).2 := by
  induction ks generalizing found with
  | nil => exact .ok ⟨by simp, by simp⟩
  | cons k rest ih =>
      obtain ⟨now, current⟩ := List.forall_mem_cons.mp current
      obtain ⟨first, apart⟩ := List.pairwise_cons.mp apart
      obtain ⟨own, among⟩ := List.forall_mem_cons.mp among
      obtain ⟨fresh, new⟩ := List.forall_mem_cons.mp new
      obtain ⟨here, steps⟩ := List.forall_mem_cons.mp steps
      have further {found : List (Key × Snapshot)} (filed : ∀ e ∈ found, K e.1) :=
        ih current steps among filed
      simp only [List.map_cons, compareLabels]
      rcases under : step k.value with ⟨notes, f | _ | d⟩
      · exact .error (here f (by rw [under]))
      · have nothing : given step k = none := by simp [given, under, Except.toOption]
        refine (further filed apart new).imp (fun _ => id) fun ds _ found => ?_
        rw [List.filterMap_cons_none nothing]
        exact ⟨List.forall_mem_cons.mpr ⟨⟨none, by rw [under]⟩, found.1⟩, found.2⟩
      · have gained : given step k = some (k, d) := by simp [given, under, Except.toOption]
        have key : h.key k.value = .ok k := now
        simp only [Heap.file, Heap.fileWith, key]
        cases entered : Entries.enter (k.isFor h.equal) k d found with
        | error f =>
            obtain ⟨e, inside, raised⟩ := enter_error entered
            exact .error (asked k e.1 own (filed e inside) f raised)
        | ok found' =>
            cases Heap.enter_append entered fresh
            refine (further (List.forall_mem_append.mpr ⟨filed, List.forall_mem_singleton.mpr own⟩)
              apart fun k' member => List.forall_mem_append.mpr
                ⟨new k' member, List.forall_mem_singleton.mpr (first k' member)⟩).imp
              (fun _ => id) fun ds _ found => ?_
            rw [List.filterMap_cons_some gained]
            exact ⟨List.forall_mem_cons.mpr ⟨⟨some d, by rw [under]⟩, found.1⟩, by simp [found.2]⟩

end Labels

/-! ## Composites -/

/-- The differences inside a composite are those under its labels.  A key that is shown with a value
    adds none. -/
theorem composed (made : ∀ m, NodeOf m s → Made m) (fresh : s.head.alreadyReferenced = false)
    {ds : List (Key × Snapshot)}
    (entry : s.head.type = entryClass → ∀ e ∈ ds, e.1 = .text "key" ∨ e.1 = .text "value") :
    Delivers (fun f => noteName h s.head = .error f)
      (fun r => leaves r = (ds.flatMap fun e => placedUnder e.1.value e.2.leafDifferences) ∧
        (r = none ↔ ds = []) ∧ ((∀ e ∈ ds, Telling e.2) → ∀ d, r = some d → Telling d))
      (composite h s ds).2 := by
  unfold composite
  cases ds with
  | nil => exact .ok ⟨rfl, by simp, by simp⟩
  | cons e rest =>
      simp only [List.isEmpty_cons, Bool.false_eq_true, if_false]
      by_cases lone : (s.head.type == entryClass && (e :: rest).length == 1 &&
          (e :: rest).all (·.1.isText "value")) = true
      · simp only [lone, if_true]
        simp only [Bool.and_eq_true, beq_iff_eq, List.length_cons, Nat.add_eq_right,
          List.length_eq_zero_iff, List.all_cons] at lone
        obtain ⟨⟨type, rfl⟩, text, _⟩ := lone
        obtain ⟨k, v, children⟩ := (made s .self).entry type fresh
        have key := (requireChild_entry (h := h) children).1
        have label : e.1 = .text "value" := by
          refine (entry type e List.mem_cons_self).resolve_left fun other => ?_
          rw [other] at text
          cases text
        simp only [key, Except.map]
        cases named : noteName h s.head with
        | error f => exact .error rfl
        | ok name =>
            have silent : k.leafDifferences = [] :=
              silent_child (e := (.text "key", k)) made (by simp [children])
            obtain ⟨k', d⟩ := e
            obtain rfl : k' = .text "value" := label
            refine .ok ⟨?_, by simp, fun telling _ same => Option.some.inj same ▸ .entry rfl type
              (telling _ List.mem_cons_self)⟩
            rw [leaves, Option.map_some, Option.getD_some, leafDifferences_entry (by rfl) silent,
              List.flatMap_singleton]
            rfl
      · simp only [lone]
        cases named : noteName h s.head with
        | error f => exact .error rfl
        | ok name =>
            refine .ok ⟨?_, by simp,
              fun telling _ same => Option.some.inj same ▸ .inner rfl (by simp) telling⟩
            simp [leaves, leafDifferences_eq (.node _ _), Snapshot.children, difference?, head]

/-! ## Trees -/

mutual
theorem induction {P : Snapshot → Prop} (step : ∀ s, (∀ e ∈ s.children, P e.2) → P s) :
    ∀ s, P s
  | .node _ children => step _ (inductionAll step children)
theorem inductionAll {P : Snapshot → Prop} (step : ∀ s, (∀ e ∈ s.children, P e.2) → P s) :
    ∀ (es : List (Key × Snapshot)), ∀ e ∈ es, P e.2
  | [] => by simp
  | (_, s) :: rest => List.forall_mem_cons.mpr ⟨induction step s, inductionAll step rest⟩
end

/-- Where two nodes are looked into, they differ under their labels. -/
theorem Opened.path (on : Opened s t) {p : List Value} {x y : String}
    (mismatch : Mismatch h s t p x y) : ∃ k ∈ labelOrder h s t, ∃ q, p = k.value :: q := by
  cases mismatch with
  | clash clash =>
      obtain ⟨types, ⟨leaf, leaf'⟩, ⟨met, met'⟩, _⟩ := on
      cases clash <;> simp_all
  | missing _ own => exact ⟨_, mem_labelOrder.mpr (.inl ⟨_, own, rfl⟩), _, rfl⟩
  | surplus _ other absent => exact ⟨_, mem_labelOrder.mpr (.inr ⟨_, other, rfl, absent⟩), _, rfl⟩
  | under _ own => exact ⟨_, mem_labelOrder.mpr (.inl ⟨_, own, rfl⟩), _, rfl⟩

/-- What is given under the labels, in their order. -/
theorem flatMap_given (step : Value → Noted (Option Snapshot)) (ks : List Key) :
    ((ks.filterMap (given step)).flatMap fun e => placedUnder e.1.value e.2.leafDifferences) =
      ks.flatMap fun k => placedUnder k.value (leaves ((step k.value).2.toOption.bind id)) := by
  induction ks with
  | nil => rfl
  | cons k rest ih =>
      rw [List.flatMap_cons, ← ih]
      cases here : (step k.value).2.toOption.bind id with
      | none =>
          have nothing : given step k = none := by rw [given, here, Option.map_none]
          rw [List.filterMap_cons_none nothing]
          rfl
      | some d =>
          have gained : given step k = some (k, d) := by rw [given, here, Option.map_some]
          rw [List.filterMap_cons_some gained]
          rfl

/-- Positions that are listed under each label are listed in all. -/
theorem Opened.lists (on : Opened s t) {r : Option Snapshot} {out : Key → Option Snapshot}
    (each : ∀ k ∈ labelOrder h s t, ListsUnder h s t k.value (out k))
    (whole : leaves r = (labelOrder h s t).flatMap fun k => placedUnder k.value (leaves (out k)))
    (telling : ∀ d, r = some d → Telling d) :
    Lists (Mismatch h s t) (Before h s t) r where
  exact p x y := by
    simp only [whole, List.mem_flatMap, placedUnder, List.mem_map]
    constructor
    · rintro ⟨k, inside, ⟨q, x', y'⟩, there, same⟩
      cases same
      exact ((each k inside).exact q x y).mp there
    · intro mismatch
      obtain ⟨k, inside, q, rfl⟩ := on.path mismatch
      exact ⟨k, inside, (q, x, y), ((each k inside).exact q x y).mpr mismatch, rfl⟩
  ordered := by
    rw [whole, List.pairwise_flatMap]
    refine ⟨fun k inside => List.pairwise_map.mpr (each k inside).ordered,
      List.pairwise_iff_forall_sublist.mpr fun {k k'} order l here l' there => ?_⟩
    obtain ⟨l, _, rfl⟩ := List.mem_map.mp here
    obtain ⟨l', _, rfl⟩ := List.mem_map.mp there
    exact .here order
  telling := telling

theorem Comparable.entry_labels (comparable : Comparable h s t) (on : Opened s t)
    (type : s.head.type = entryClass) {k : Key} (inside : k ∈ labelOrder h s t) :
    k = .text "key" ∨ k = .text "value" := by
  have among {n : Snapshot} (made : Made n) (type : n.head.type = entryClass)
      (fresh : n.head.alreadyReferenced = false) {e : Key × Snapshot} (inside : e ∈ n.children) :
      e.1 = .text "key" ∨ e.1 = .text "value" := by
    obtain ⟨u, v, children⟩ := made.entry type fresh
    rw [children] at inside
    simp only [List.mem_cons, List.not_mem_nil, or_false] at inside
    exact inside.imp (congrArg Prod.fst) (congrArg Prod.fst)
  rcases mem_labelOrder.mp inside with ⟨e, own, rfl⟩ | ⟨e, other, rfl, _⟩
  · exact among (comparable.made s (.inl .self)) type on.fresh.1 own
  · exact among (comparable.made t (.inr .self)) (on.types ▸ type) on.fresh.2 other

/-- The differences between children are those under the labels, in their order. -/
theorem Comparable.children (comparable : Comparable h s t) (on : Opened s t)
    (each : ∀ e ∈ s.children, ∀ e' ∈ t.children, Reported h e.2 e'.2 (compare h e.2 e'.2).2) :
    Delivers (Unanswered h s t) (fun ds => ∃ step : Value → Noted (Option Snapshot),
      (∀ k ∈ labelOrder h s t, ListsUnder h s t k.value ((step k.value).2.toOption.bind id)) ∧
      ds = (labelOrder h s t).filterMap (given step))
      (compareChildren h (candidates h s.children) t.children).2 := by
  let K (k : Key) : Prop := ∃ n e, (NodeOf n s ∨ NodeOf n t) ∧ e ∈ n.children ∧ e.1 = k
  have own {e : Key × Snapshot} (inside : e ∈ s.children) : K e.1 := ⟨s, e, .inl .self, inside, rfl⟩
  have other {e : Key × Snapshot} (inside : e ∈ t.children) : K e.1 :=
    ⟨t, e, .inr .self, inside, rfl⟩
  have asked (k k' : Key) (known : K k) (known' : K k') (f : Fault)
      (raised : k.isFor h.equal k' = .error f) : Unanswered h s t f := by
    obtain ⟨n, e, node, inside, rfl⟩ := known
    obtain ⟨m, e', node', inside', rfl⟩ := known'
    exact .label node node' inside inside' raised
  have steps : ∀ k ∈ labelOrder h s t, Delivers (Unanswered h s t) (ListsUnder h s t k.value)
      (compareUnder h (candidates h s.children) t.children k.value).2 := by
    intro k inside
    rcases mem_labelOrder.mp inside with ⟨e, here, rfl⟩ | ⟨e, here, rfl, absent⟩
    · exact comparable.under_own on here (each e here)
    · exact comparable.under_other on here absent
  have labels : (candidates h s.children).map (·.1.value) = s.children.map (·.1.value) := by
    rw [candidates_eq, List.map_map]
    rfl
  have listed := extraLabels_delivers (Unanswered h s t) s.children t.children <| by
    intro e inside f raised
    obtain ⟨e', inside', failed⟩ :=
      find?_error ((comparable.kept t (.inr .self)).current e inside) raised
    exact asked e.1 e'.1 (other inside) (own inside') f failed
  unfold compareChildren
  cases extra : extraLabels h (candidates h s.children) t.children with
  | error f =>
      exact .error (extra ▸ listed).of_error
  | ok more =>
      have order : s.children.map (·.1.value) ++ more = (labelOrder h s t).map (·.value) := by
        simp only [(extra ▸ listed).of_ok.1, labelOrder, List.map_append, List.map_map,
          Function.comp_def]
      dsimp only
      rw [labels, order]
      refine (compareLabels_delivers comparable.order_current ?_ asked ?_ (by simp)
        comparable.order_apart (by simp)).imp (fun _ => id) ?_
      · exact fun k inside f raised => (raised ▸ steps k inside).of_error
      · intro k inside
        rcases mem_labelOrder.mp inside with ⟨e, here, rfl⟩ | ⟨e, here, rfl, _⟩
        · exact own here
        · exact other here
      · rintro ds _ ⟨come, same⟩
        refine ⟨_, fun k inside => ?_, same⟩
        obtain ⟨r, told⟩ := come k inside
        rw [told]
        exact (told ▸ steps k inside).of_ok

/-- Nodes that are looked into list what differs under their labels. -/
theorem Comparable.opened (comparable : Comparable h s t) (on : Opened s t)
    (each : ∀ e ∈ s.children, ∀ e' ∈ t.children, Reported h e.2 e'.2 (compare h e.2 e'.2).2) :
    Reported h s t (compare h s t).2 := by
  have inner := comparable.children on each
  have heads : compareHeads h s t = none := opened_iff.mpr on
  obtain ⟨head, children⟩ := s
  simp only [compare, heads]
  rcases compared : compareChildren h (candidates h children) t.children with ⟨notes, f | ds⟩
  · rw [Snapshot.children, compared] at inner
    exact .error inner.of_error
  · rw [Snapshot.children, compared] at inner
    obtain ⟨step, lists, rfl⟩ := inner.of_ok
    have given_of {e : Key × Snapshot}
        (inside : e ∈ (labelOrder h (.node head children) t).filterMap (given step)) :
        e.1 ∈ labelOrder h (.node head children) t ∧
          (step e.1.value).2.toOption.bind id = some e.2 := by
      obtain ⟨k, member, gained⟩ := List.mem_filterMap.mp inside
      obtain ⟨d, found, rfl⟩ := Option.map_eq_some_iff.mp gained
      exact ⟨member, found⟩
    have shown := composed (h := h) (fun m node => comparable.made m (.inl node)) on.fresh.1
      fun type e inside => comparable.entry_labels on type (given_of inside).1
    apply shown.imp fun f raised => .name .self raised
    rintro r _ ⟨listed, _, telling⟩
    refine on.lists lists (listed.trans (flatMap_given step _)) (telling fun e inside => ?_)
    obtain ⟨member, found⟩ := given_of inside
    exact (lists e.1 member).telling e.2 found

/-- A comparison lists the positions at which two trees differ, or what it has asked raises. -/
theorem Comparable.compare (comparable : Comparable h s t) :
    Reported h s t (Snapshot.compare h s t).2 := by
  induction s using induction generalizing t with
  | step s ih =>
      cases heads : compareHeads h s t with
      | none =>
          refine comparable.opened (opened_iff.mp heads) fun e inside e' inside' => ?_
          exact ih e inside (comparable.under inside inside')
      | some result =>
          have told := comparable.heads heads
          obtain ⟨head, children⟩ := s
          simpa only [Snapshot.compare, heads] using told

end Snapshot

end Assay
