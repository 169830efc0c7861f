import Assay.Proofs.Facet.Company
import Assay.Proofs.Snapshot.Agreement

/-! # Snapshots read on twin heaps

A snapshot is asked for texts and compared with another one while the heap goes on changing.  As
long as what the snapshots keep, and what that refers to, is the same on both heaps, the answers are
the same.  Only an exception may hold objects that have been made for the question: where leaves of
different make are compared, what they keep is put on the heap first.
-/

namespace Assay

variable {R : Renaming}

section Mono

variable {S : Renaming} (more : ∀ a a', R a a' → S a a')

include more

theorem Fault.Renamed.mono {f f' : Fault} (renamed : f.Renamed R f') : f.Renamed S f' :=
  ⟨renamed.cls, renamed.args.imp fun _ _ arg => arg.mono more⟩

theorem Results.mono {α β : Type} {P : α → β → Prop} {r : Except Fault α} {r' : Except Fault β}
    (results : Results R False P r r') : Results S False P r r' := by
  cases results using Results.both with
  | ok related => exact .ok related
  | error same => exact .error (same.mono more)

end Mono

/-! ## What leaves keep -/

namespace Heap.Twin

variable {h h' : Heap} (twin : h.Twin R h')

include twin

theorem summarizeValue {v v' : Value} (renamed : v.Renamed R v') :
    Results R False Eq (h.summarizeValue v) (h'.summarizeValue v') := by
  have written := twin.repr renamed
  cases renamed with
  | nan | ref => exact written
  | datum data =>
      cases v with
      | ref a => cases data
      | pattern source flags => exact .ok rfl
      | member m =>
          obtain ⟨cls, name, payload, transparent⟩ := m
          cases payload <;> cases transparent <;> first | exact written | exact .ok rfl
      | _ => exact written

theorem summarize {c c' : Captured} (content : c.Renamed R c') :
    Results R False Eq (h.summarize c) (h'.summarize c') := by
  cases content with
  | value renamed => exact twin.summarizeValue renamed
  | difference => exact .ok rfl
  | members items =>
      have texts := textAll_related (fun v v' => twin.repr) (Key.inSetOrder_related items)
      cases items with
      | nil => exact .ok rfl
      | cons => exact texts.map fun _ _ same => by rw [same]

/-- Whatever is made next on both heaps is renamed. -/
theorem alloc {common : Reach} (fair : Fair common h.classes)
    (shared : ∀ a ∈ common.addresses, R a a) (fresh : R h.objects.size h'.objects.size)
    {o o' : Object} (object : o.Renamed R o') : (h.alloc o).1.Twin R (h'.alloc o').1 := by
  have objects (a a' : Address) (here : R a a') :
      ((h.alloc o).1.object a).Renamed R ((h'.alloc o').1.object a') := by
    have same := twin.ordered.eq_iff here fresh
    rw [object_alloc, object_alloc]
    by_cases new : a = h.objects.size
    · rw [if_pos new, if_pos (same.mp new)]
      exact object
    · rw [if_neg new, if_neg fun new' => new (same.mpr new')]
      exact twin.objects here
  exact
    { ordered := twin.ordered
      classes := twin.classes
      size := by simpa [Heap.alloc] using twin.size
      objects := objects _ _
      impartial := fair R twin.ordered shared _ _ objects
      root := .of_classes (show (h.alloc o).1.classes = h.classes from rfl) twin.root }

theorem thaw {common : Reach} (fair : Fair common h.classes)
    (shared : ∀ a ∈ common.addresses, R a a)
    (fresh : ∀ n, R (h.objects.size + n) (h'.objects.size + n)) {c c' : Captured}
    (content : c.Renamed R c') : (h.thaw c).1.Twin R (h'.thaw c').1 ∧
      (h.thaw c).2.Renamed R (h'.thaw c').2 ∧
      ∀ n, R ((h.thaw c).1.objects.size + n) ((h'.thaw c').1.objects.size + n) := by
  have made {o o' : Object} (object : o.Renamed R o') : (h.alloc o).1.Twin R (h'.alloc o').1 ∧
      (Value.ref (h.alloc o).2).Renamed R (.ref (h'.alloc o').2) ∧
      ∀ n, R ((h.alloc o).1.objects.size + n) ((h'.alloc o').1.objects.size + n) := by
    refine ⟨twin.alloc fair shared (fresh 0) object, .ref (fresh 0), fun n => ?_⟩
    simpa [Heap.alloc, Nat.add_assoc] using fresh (1 + n)
  cases content with
  | value renamed => exact ⟨twin, renamed, fresh⟩
  | members items => exact made ⟨rfl, .members items, .nil, .nil⟩
  | difference =>
      exact made ⟨rfl, .plain, .cons ⟨rfl, .datum rfl⟩ (.cons ⟨rfl, .datum rfl⟩ .nil), .nil⟩

theorem contentEqual {common : Reach} (fair : Fair common h.classes)
    (shared : ∀ a ∈ common.addresses, R a a)
    (fresh : ∀ n, R (h.objects.size + n) (h'.objects.size + n)) {c c' d d' : Captured}
    (left : c.Renamed R c') (right : d.Renamed R d') :
    Results R False Eq (h.contentEqual c d) (h'.contentEqual c' d') := by
  have thawed : Results R False Eq
      (((h.thaw c).1.thaw d).1.leafEqual (h.thaw c).2 ((h.thaw c).1.thaw d).2)
      (((h'.thaw c').1.thaw d').1.leafEqual (h'.thaw c').2 ((h'.thaw c').1.thaw d').2) := by
    obtain ⟨first, value, later⟩ := twin.thaw fair shared fresh left
    have classes : (h.thaw c).1.classes = h.classes := by cases c <;> rfl
    obtain ⟨second, other, _⟩ := first.thaw (classes ▸ fair) shared later right
    exact second.leafEqual value other
  cases left with
  | value renamed =>
      cases right with
      | value renamed' => exact twin.leafEqual renamed renamed'
      | _ => exact thawed
  | members items =>
      cases right with
      | members items' => exact membersEqual_related twin.ordered twin.equal items items'
      | _ => exact thawed
  | difference => cases right <;> exact thawed

end Heap.Twin

/-! ## What snapshots keep -/

/-- All that a snapshot keeps lies in a place, but for the identities that it tells. -/
inductive Snapshot.KeptIn (place : Set Address) : Snapshot → Prop where
  | node {head children} : head.label.Renamed (.fixing place) head.label →
      head.content.Renamed (.fixing place) head.content →
      (∀ e ∈ children, e.1.Renamed (.fixing place) e.1) → (∀ e ∈ children, KeptIn place e.2) →
      KeptIn place (.node head children)

/-- The same notes, and the same result but for objects that were made for it. -/
structure Noted.Alike (R : Renaming) {α β : Type} (S : α → β → Prop) (n : Noted α) (n' : Noted β) :
    Prop where
  notes : n'.1 = n.1
  result : Results R False S n.2 n'.2

/-- The same snapshot, which keeps only what lies in a place. -/
def Snapshot.Still (place : Set Address) (s s' : Snapshot) : Prop := s' = s ∧ s.KeptIn place

section Reading

variable {place : Set Address}

theorem Renaming.fixing_eq {v v' : Value} (renamed : v.Renamed (.fixing place) v') : v' = v := by
  cases renamed with
  | datum => rfl
  | nan here | ref here => rw [here.2]

theorem Digest.Reads.eq_of_fixing {u p : Nat} {d d' : Digest}
    (reads : Digest.Reads (.fixing place) u p d d') : d' = d := by
  induction reads with
  | done => rfl
  | unit _ _ ih | tag _ _ ih | units _ ih | counted _ _ ih => rw [ih]
  | located _ here _ ih => rw [ih, here.2]

theorem Key.Renamed.eq_of_fixing {k k' : Key} (key : k.Renamed (.fixing place) k') : k' = k := by
  obtain ⟨value, digest⟩ := k
  obtain ⟨value', digest'⟩ := k'
  cases Renaming.fixing_eq key.value
  cases Digest.Reads.eq_of_fixing key.digest
  rfl

theorem Renaming.values_eq {vs vs' : List Value} (lie : (Renaming.fixing place).Values vs vs') :
    vs' = vs := by
  induction lie with
  | nil => rfl
  | cons here _ ih => rw [ih, Renaming.fixing_eq here]

theorem Results.eq_of_fixing {α : Type} {r r' : Except Fault α}
    (results : Results (.fixing place) False Eq r r') : r' = r := by
  cases results using Results.both with
  | ok same => rw [same]
  | @error f f' same =>
      obtain ⟨cls, args⟩ := f
      obtain ⟨cls', args'⟩ := f'
      exact congrArg Except.error ((Fault.mk.injEq ..).mpr ⟨same.cls, Renaming.values_eq same.args⟩)

theorem filed_eq_of_fixing {α : Type} {es es' : List (Key × α)}
    (filed : List.Forall₂ (Both (Key.Renamed (.fixing place)) Eq) es es') : es' = es := by
  induction filed with
  | nil => rfl
  | cons here _ ih => rw [ih, Prod.ext here.1.eq_of_fixing here.2.symm]

namespace Snapshot

variable {s t : Snapshot} {es : List (Key × Snapshot)}

theorem KeptIn.label (kept : s.KeptIn place) :
    s.head.label.Renamed (.fixing place) s.head.label := by
  cases kept with
  | node label => exact label

theorem KeptIn.content (kept : s.KeptIn place) :
    s.head.content.Renamed (.fixing place) s.head.content := by
  cases kept with
  | node _ content => exact content

theorem KeptIn.children (kept : s.KeptIn place) :
    List.Forall₂ (Both (Key.Renamed (.fixing place)) (Still place)) s.children s.children := by
  cases kept with
  | node _ _ keys inner =>
      exact List.forall₂_same.mpr fun e inside => ⟨keys e inside, rfl, inner e inside⟩

variable {h h' : Heap} (fixed : h.Twin (.fixing place) h')

include fixed

theorem summary_same (kept : s.KeptIn place) :
    Results (.fixing place) False Eq (s.summary h) (s.summary h') := by
  unfold summary
  split
  · exact fixed.summarize kept.content
  · cases s.head.identity <;> exact .ok rfl

theorem find?_same {α β : Type} {S : α → β → Prop} {es : List (Key × α)} {es' : List (Key × β)}
    {label : Value} (lies : label.Renamed (.fixing place) label)
    (filed : List.Forall₂ (Both (Key.Renamed (.fixing place)) S) es es') :
    Results (.fixing place) False (Option.Rel S) (h.find? label es) (h'.find? label es') :=
  fixed.under? fixed.equal lies filed

theorem requireChild_same (kept : s.KeptIn place) (label : String) :
    Results (.fixing place) False (Still place) (s.requireChild h label)
      (s.requireChild h' label) :=
  fixed.find kept.children (.datum rfl)

theorem leafDifference_same (left : s.KeptIn place) (right : t.KeptIn place) :
    Results (.fixing place) False Eq (s.leafDifference h t) (s.leafDifference h' t) :=
  (summary_same fixed left).bind fun _ _ first => (summary_same fixed right).bind fun _ _ second =>
    .ok (by rw [first, second])

theorem taggedSummary_same (kept : s.KeptIn place) :
    Results (.fixing place) False Eq (s.taggedSummary h) (s.taggedSummary h') :=
  (summary_same fixed kept).map fun _ _ same => by rw [same]

theorem missingItem_same (missing : Bool) (kept : s.KeptIn place) :
    Results (.fixing place) False Eq (s.missingItem h missing) (s.missingItem h' missing) := by
  unfold missingItem
  dsimp only
  split
  · refine (requireChild_same fixed kept "value").bind fun value value' same => ?_
    obtain ⟨rfl, keptValue⟩ := same
    refine (summary_same fixed keptValue).bind fun text _ told => ?_
    refine (requireChild_same fixed kept "key").bind fun key key' same => ?_
    obtain ⟨rfl, _⟩ := same
    exact .ok (by rw [told])
  · exact (summary_same fixed kept).bind fun _ _ told => .ok (by rw [told])

theorem noteName_same (kept : s.KeptIn place) :
    Results (.fixing place) False Eq (noteName h s.head) (noteName h' s.head) := by
  unfold noteName
  rw [fixed.truth kept.label]
  split
  · exact fixed.display kept.label
  · exact .ok rfl

theorem composite_same (kept : s.KeptIn place) (differences : List (Key × Snapshot)) :
    Noted.Alike (.fixing place) Eq (composite h s differences) (composite h' s differences) := by
  have key := requireChild_same fixed kept "key"
  have named := noteName_same fixed kept
  unfold composite
  split
  · exact ⟨rfl, .ok rfl⟩
  · generalize s.requireChild h "key" = k, s.requireChild h' "key" = k' at key ⊢
    generalize noteName h s.head = n, noteName h' s.head = n' at named ⊢
    cases s.head.type == entryClass && differences.length == 1 &&
      differences.all (·.1.isText "value") with
    | false =>
        cases named using Results.both with
        | error same => exact ⟨rfl, .error same⟩
        | ok same => exact same ▸ ⟨rfl, .ok rfl⟩
    | true =>
        cases key using Results.both with
        | error same => exact ⟨rfl, .error same⟩
        | ok child =>
            cases child.1
            cases named using Results.both with
            | error same => exact ⟨rfl, .error same⟩
            | ok same => exact same ▸ ⟨rfl, .ok rfl⟩

omit fixed

/-! ## Comparing -/

section Comparing

variable (more : ∀ a a', Renaming.fixing place a a' → R a a')
  (contents : ∀ c d : Captured, c.Renamed (.fixing place) c → d.Renamed (.fixing place) d →
    Results R False Eq (h.contentEqual c d) (h'.contentEqual c d))

/-- The same member, compared in the same way. -/
structure SameCandidate (R : Renaming) (place : Set Address) (c c' : Candidate) : Prop where
  still : Still place c.1 c'.1
  compares : ∀ t : Snapshot, t.KeptIn place → Noted.Alike R Eq (c.2 t) (c'.2 t)

include fixed more contents in
theorem compareHeads_same (left : s.KeptIn place) (right : t.KeptIn place) :
    Option.Rel (Results R False Eq) (compareHeads h s t) (compareHeads h' s t) := by
  have differ := ((leafDifference_same fixed left right).mono more).map fun _ _ same =>
    congrArg some same
  have tagged : Results R False Eq
      (do
        let left ← s.taggedSummary h
        let right ← t.taggedSummary h
        return some (difference left right s.head.label))
      (do
        let left ← s.taggedSummary h'
        let right ← t.taggedSummary h'
        return some (difference left right s.head.label)) :=
    ((taggedSummary_same fixed left).mono more).bind fun _ _ first =>
      ((taggedSummary_same fixed right).mono more).bind fun _ _ second =>
        .ok (by rw [first, second])
  unfold compareHeads
  dsimp only
  split
  · exact .some (.ok rfl)
  split
  · exact .some differ
  split
  · have equal := contents _ _ left.content right.content
    generalize h.contentEqual s.head.content t.head.content = r,
      h'.contentEqual s.head.content t.head.content = r' at equal ⊢
    cases equal using Results.both with
    | error same => exact .some (.error same)
    | @ok b _ same =>
        cases same
        cases b with
        | true => exact .some (.ok rfl)
        | false => exact .some differ
  split
  · exact .some differ
  split
  · exact .some tagged
  · exact .none

variable {known known' : List (Key × Candidate)}
  (candidates : List.Forall₂ (Both (Key.Renamed (.fixing place)) (SameCandidate R place))
    known known')

include fixed candidates

theorem extraLabels_same {es : List (Key × Snapshot)}
    (keys : ∀ e ∈ es, e.1.Renamed (.fixing place) e.1) :
    Results (.fixing place) False (Renaming.fixing place).Values (extraLabels h known es)
      (extraLabels h' known' es) := by
  induction es with
  | nil => exact .ok .nil
  | cons e rest ih =>
      obtain ⟨label, s⟩ := e
      obtain ⟨here, later⟩ := List.forall_mem_cons.mp keys
      have found := find?_same fixed here.value candidates
      simp only [extraLabels]
      generalize h.find? label.value known = r, h'.find? label.value known' = r' at found ⊢
      cases found using Results.both with
      | error same => exact .error same
      | ok found =>
          cases found with
          | some => exact ih later
          | none => exact (ih later).map fun _ _ values => .cons here.value values

include more

theorem compareUnder_same (right : t.KeptIn place) {label : Value}
    (lies : label.Renamed (.fixing place) label) : Noted.Alike R Eq
      (compareUnder h known t.children label) (compareUnder h' known' t.children label) := by
  have one := find?_same fixed lies candidates
  have other := find?_same fixed lies right.children
  unfold compareUnder
  generalize h.find? label known = r, h'.find? label known' = r' at one ⊢
  generalize h.find? label t.children = q, h'.find? label t.children = q' at other ⊢
  have missing (s : Snapshot) (kept : s.KeptIn place) (b : Bool) : Noted.Alike R Eq
      ([], (s.missingItem h b).map some) ([], (s.missingItem h' b).map some) :=
    ⟨rfl, ((missingItem_same fixed b kept).mono more).map fun _ _ same => congrArg some same⟩
  cases one using Results.both with
  | error same => exact ⟨rfl, .error (same.mono more)⟩
  | ok one =>
      cases other using Results.both with
      | error same => cases one <;> exact ⟨rfl, .error (same.mono more)⟩
      | ok other =>
          cases one with
          | none =>
              cases other with
              | none => exact ⟨rfl, .message _ _⟩
              | some here =>
                  cases here.1
                  exact missing _ here.2 true
          | @some c c' same =>
              obtain ⟨s, compare⟩ := c
              obtain ⟨s', compare'⟩ := c'
              obtain ⟨⟨rfl, kept⟩, compares⟩ := same
              cases other with
              | none => exact missing _ kept false
              | some here =>
                  cases here.1
                  exact compares _ here.2

omit candidates

theorem compareLabels_same {step step' : Value → Noted (Option Snapshot)}
    {labels labels' : List Value} (lie : (Renaming.fixing place).Values labels labels')
    (steps : ∀ label, label.Renamed (.fixing place) label →
      Noted.Alike R Eq (step label) (step' label))
    {found found' : List (Key × Snapshot)}
    (same : List.Forall₂ (Both (Key.Renamed (.fixing place)) Eq) found found') :
    Noted.Alike R (List.Forall₂ (Both (Key.Renamed (.fixing place)) Eq))
      (compareLabels h step found labels) (compareLabels h' step' found' labels') := by
  induction lie generalizing found found' with
  | nil => exact ⟨rfl, .ok same⟩
  | @cons label _ labels labels' here _ ih =>
      cases Renaming.fixing_eq here
      have stepped := steps label here
      simp only [compareLabels]
      generalize step label = n, step' label = n' at stepped ⊢
      obtain ⟨notes, r⟩ := n
      obtain ⟨notes', r'⟩ := n'
      obtain ⟨rfl, result⟩ := stepped
      have go {found found' : List (Key × Snapshot)}
          (same : List.Forall₂ (Both (Key.Renamed (.fixing place)) Eq) found found') :
          Noted.Alike R (List.Forall₂ (Both (Key.Renamed (.fixing place)) Eq))
            (notes' ++ (compareLabels h step found labels).1,
              (compareLabels h step found labels).2)
            (notes' ++ (compareLabels h' step' found' labels').1,
              (compareLabels h' step' found' labels').2) :=
        ⟨congrArg (notes' ++ ·) (ih same).notes, (ih same).result⟩
      cases result using Results.both with
      | error same => exact ⟨rfl, .error same⟩
      | @ok x _ one =>
          cases one
          cases x with
          | none => exact go same
          | some d =>
              have filed := fixed.fileWith fixed.equal here same (Eq.refl d)
              simp only [Heap.file]
              generalize h.fileWith h.equal found label d = f,
                h'.fileWith h'.equal found' label d = f' at filed ⊢
              cases filed using Results.both with
              | error same => exact ⟨rfl, .error (same.mono more)⟩
              | ok same => exact go same

include candidates

theorem compareChildren_same (right : t.KeptIn place) :
    Noted.Alike R (List.Forall₂ (Both (Key.Renamed (.fixing place)) Eq))
      (compareChildren h known t.children) (compareChildren h' known' t.children) := by
  have keys : ∀ e ∈ t.children, e.1.Renamed (.fixing place) e.1 := fun e inside =>
    (List.forall₂_same.mp right.children e inside).1
  have extra := extraLabels_same fixed candidates keys
  have labels : (Renaming.fixing place).Values (known.map (·.1.value)) (known'.map (·.1.value)) :=
    map_related candidates fun _ _ both => both.1.value
  simp only [compareChildren]
  generalize extraLabels h known t.children = r, extraLabels h' known' t.children = r' at extra ⊢
  cases extra using Results.both with
  | error same => exact ⟨rfl, .error (same.mono more)⟩
  | ok extra =>
      exact compareLabels_same fixed more (List.rel_append labels extra)
        (fun label lies => compareUnder_same fixed more candidates right lies) .nil

omit candidates

include contents in
/-- Snapshots that keep only what is the same on both heaps compare in the same way on both. -/
theorem compare_same (left : s.KeptIn place) (right : t.KeptIn place) :
    Noted.Alike R Eq (compare h s t) (compare h' s t) := by
  induction left generalizing t with
  | @node head children label content keys inner ih =>
      have left : (node head children).KeptIn place := .node label content keys inner
      have heads := compareHeads_same fixed more contents left right
      have each : List.Forall₂ (Both (Key.Renamed (.fixing place)) (SameCandidate R place))
          (Snapshot.candidates h children) (Snapshot.candidates h' children) := by
        rw [candidates_eq, candidates_eq]
        refine List.forall₂_map_left_iff.mpr (List.forall₂_map_right_iff.mpr ?_)
        exact List.forall₂_same.mpr fun e inside =>
          ⟨keys e inside, ⟨rfl, inner e inside⟩, fun t right => ih e inside right⟩
      have differences := compareChildren_same fixed more each right
      simp only [compare]
      generalize compareHeads h (node head children) t = o,
        compareHeads h' (node head children) t = o' at heads ⊢
      cases heads with
      | some same => exact ⟨rfl, same⟩
      | none =>
          generalize compareChildren h (Snapshot.candidates h children) t.children = n,
            compareChildren h' (Snapshot.candidates h' children) t.children = n' at differences ⊢
          obtain ⟨notes, r⟩ := n
          obtain ⟨notes', r'⟩ := n'
          obtain ⟨rfl, result⟩ := differences
          have whole (found : List (Key × Snapshot)) := composite_same fixed left found
          cases result using Results.both with
          | error same => exact ⟨rfl, .error same⟩
          | @ok found _ same =>
              cases filed_eq_of_fixing same
              exact ⟨congrArg (notes' ++ ·) (whole found).notes, (whole found).result.mono more⟩

end Comparing

/-! ## Reports -/

theorem reportAll_same {children : List (Key × Snapshot)}
    (each : ∀ e ∈ children, Results (.fixing place) False Eq (e.2.report h) (e.2.report h')) :
    Results (.fixing place) False Eq (reportAll h children) (reportAll h' children) := by
  induction children with
  | nil => exact .ok rfl
  | cons e rest ih =>
      obtain ⟨first, others⟩ := List.forall_mem_cons.mp each
      have later := ih others
      obtain ⟨label, s⟩ := e
      simp only [reportAll]
      generalize s.report h = r, s.report h' = r' at first ⊢
      cases first using Results.both with
      | error same => exact .error same
      | ok same => exact later.map fun _ _ rest => by rw [same, rest]

include fixed

theorem report_same (kept : s.KeptIn place) :
    Results (.fixing place) False Eq (s.report h) (s.report h') := by
  induction kept with
  | @node head children label content keys inner ih =>
      have told := summary_same fixed (.node label content keys inner)
      have below := reportAll_same ih
      simp only [report]
      generalize (node head children).summary h = r, (node head children).summary h' = r' at told ⊢
      cases told using Results.both with
      | error same => exact .error same
      | ok same =>
          cases same
          cases (node head children).difference? with
          | some pair => exact .ok rfl
          | none => exact below.map fun _ _ same => by rw [same]

end Snapshot

end Reading

end Assay
