import Assay.Proofs.Snapshot.Members

/-! # What is expanded, and where

A snapshot is taken depth first, and what has been entered is handed on from member to member.  The
nodes of a snapshot stand in the same order, so a node is marked as met before exactly if the walk
over the snapshot has already come by its composite.  What the walk has entered contains the members
of whatever it has entered, so no composite that can be reached is missing.

Both rest on all members being kept: a member whose label is taken by a later one has been entered,
but is not shown.
-/

namespace Assay

namespace Snapshot

/-- The composites that nodes show, as a whole or not. -/
def met (nodes : List (List Value × Snapshot)) : List Address :=
  nodes.filterMap (·.2.head.identity)

/-- The composite that a node shows as a whole. -/
def expanded? (s : Snapshot) : Option Address :=
  if s.head.alreadyReferenced then none else s.head.identity

/-- The composites that nodes show as a whole. -/
def expanded (nodes : List (List Value × Snapshot)) : List Address :=
  nodes.filterMap (·.2.expanded?)

/-- Nodes are marked exactly if their composite is among those seen, or that of an earlier node. -/
def Marked : List Address → List (List Value × Snapshot) → Prop
  | _, [] => True
  | seen, n :: rest =>
    (∀ c, n.2.head.identity = some c → (n.2.head.alreadyReferenced = true ↔ c ∈ seen)) ∧
      Marked (seen ++ n.2.head.identity.toList) rest

section Marked

variable {seen seen' : List Address} {nodes more : List (List Value × Snapshot)}

theorem met_cons (n : List Value × Snapshot) :
    met (n :: nodes) = n.2.head.identity.toList ++ met nodes := by
  cases identity : n.2.head.identity <;> simp [met, identity]

theorem Marked.congr (marked : Marked seen nodes) (same : ∀ c, c ∈ seen ↔ c ∈ seen') :
    Marked seen' nodes := by
  induction nodes generalizing seen seen' with
  | nil => trivial
  | cons n rest ih =>
      exact ⟨fun c identity => (marked.1 c identity).trans (same c),
        ih marked.2 fun c => by simp only [List.mem_append, same]⟩

theorem marked_append :
    Marked seen (nodes ++ more) ↔ Marked seen nodes ∧ Marked (seen ++ met nodes) more := by
  induction nodes generalizing seen with
  | nil => simp [Marked, met]
  | cons n rest ih =>
      simp only [List.cons_append, Marked, ih, met_cons, List.append_assoc, and_assoc]

theorem expanded_cons (n : List Value × Snapshot) :
    expanded (n :: nodes) = n.2.expanded?.toList ++ expanded nodes := by
  cases whole : n.2.expanded? <;> simp [expanded, whole]

theorem expanded?_eq_some {s : Snapshot} {c : Address}
    (marked : ∀ c, s.head.identity = some c → (s.head.alreadyReferenced = true ↔ c ∈ seen)) :
    s.expanded? = some c ↔ s.head.identity = some c ∧ c ∉ seen := by
  cases identity : s.head.identity with
  | none => simp [expanded?, identity]
  | some d =>
      have old := marked d identity
      cases again : s.head.alreadyReferenced with
      | false =>
          have new : d ∉ seen := fun present => by simp [again, present] at old
          simp only [expanded?, again, identity, Option.some.injEq, Bool.false_eq_true, if_false]
          exact (and_iff_left_of_imp fun same => same ▸ new).symm
      | true =>
          simp only [expanded?, again, if_true, reduceCtorEq, Option.some.injEq, false_iff]
          exact fun new => new.2 (new.1 ▸ old.mp again)

/-- Where nodes are marked as they should be, each new composite is expanded at one of them. -/
theorem Marked.expanded (marked : Marked seen nodes) : (expanded nodes).Nodup ∧
    ∀ c, c ∈ expanded nodes ↔ c ∈ met nodes ∧ c ∉ seen := by
  induction nodes generalizing seen with
  | nil => simp [Snapshot.expanded, met]
  | cons n rest ih =>
      obtain ⟨once, each⟩ := ih marked.2
      have here (c : Address) := expanded?_eq_some (c := c) marked.1
      simp only [expanded_cons, met_cons, List.mem_append, Option.mem_toList, not_or] at each ⊢
      constructor
      · refine List.nodup_append.mpr ⟨by cases n.2.expanded? <;> simp, once, ?_⟩
        rintro c now _ later rfl
        exact ((each c).mp later).2.2 ((here c).mp (Option.mem_toList.mp now)).1
      · intro c
        rw [here c, each c]
        tauto

end Marked

end Snapshot

namespace Heap

variable (h : Heap)

/-- No field of an object has the name of an earlier one. -/
def FieldsApart (v : Value) : Prop := ∀ u ps, h.PassesBy v u → h.HasParts u ps →
  ∀ (i j : Nat) n x n' x', i < j → ps[i]? = some (.field n x) → ps[j]? = some (.field n' x') →
    ¬ h.SameName n' n

/-- No member of what a walk comes by is shown under the label of an earlier one. -/
def AllApart (v : Value) : Prop := ∀ u ps, h.PassesBy v u → h.HasParts u ps → h.LabelsDiffer ps

variable {h} {u v x : Value} {ps : List Part}

/-! ## Labels that differ everywhere -/

theorem LabelsDiffer.of_apart (keys : h.KeysWrittenApart v v) (names : h.FieldsApart v)
    (passes : h.PassesBy v u) (members : h.HasParts u ps) : h.LabelsDiffer ps := by
  cases shape : h.shape u with
  | leaf =>
      unfold HasParts parts at members
      simp only [shape, Except.ok.injEq] at members
      exact List.map_eq_nil_iff.mp members.symm ▸ List.Pairwise.nil
  | sequence a items => exact (hasParts_sequence shape).mp members ▸ labelsDiffer_items 0 items
  | mapping a kind es =>
      have mapping : h.kind u = .mapping := by simp [Heap.kind, shape, Shape.kind]
      refine List.pairwise_iff_getElem.mpr fun i j below below' before same => ?_
      obtain ⟨k, x, here⟩ := members.entries mapping _ (List.getElem_mem below)
      obtain ⟨k', x', there⟩ := members.entries mapping _ (List.getElem_mem below')
      rw [here, there, sameLabel_entries] at same
      obtain ⟨text, told', told⟩ := same
      have one : i = j := keys u ps (.inl passes) members i j k x k' x' text
        (here ▸ List.getElem?_eq_getElem below) (there ▸ List.getElem?_eq_getElem below') told told'
      omega
  | structured a =>
      have structured : h.kind u = .structured := by simp [Heap.kind, shape, Shape.kind]
      refine List.pairwise_iff_getElem.mpr fun i j below below' before same => ?_
      obtain ⟨n, x, here⟩ := members.fields structured _ (List.getElem_mem below)
      obtain ⟨n', x', there⟩ := members.fields structured _ (List.getElem_mem below')
      rw [here, there] at same
      exact names u ps passes members i j n x n' x' before
        (here ▸ List.getElem?_eq_getElem below) (there ▸ List.getElem?_eq_getElem below') same

theorem LabelsDiffer.at (differ : h.LabelsDiffer ps) {i j : Nat} {p q : Part} (before : i < j)
    (at_i : ps[i]? = some p) (at_j : ps[j]? = some q) : ¬ h.SameLabel q p := by
  obtain ⟨below, rfl⟩ := List.getElem?_eq_some_iff.mp at_i
  obtain ⟨below', rfl⟩ := List.getElem?_eq_some_iff.mp at_j
  exact List.pairwise_iff_getElem.mp differ i j below below' before

theorem allApart_iff : h.AllApart v ↔ h.KeysWrittenApart v v ∧ h.FieldsApart v := by
  constructor
  · intro apart
    constructor
    · intro u ps passed members i j k x k' x' text at_i at_j told told'
      have differ := apart u ps (or_self_iff.mp passed) members
      rcases lt_trichotomy i j with before | same | after
      · exact absurd (sameLabel_entries.mpr ⟨text, told', told⟩) (differ.at before at_i at_j)
      · exact same
      · exact absurd (sameLabel_entries.mpr ⟨text, told, told'⟩) (differ.at after at_j at_i)
    · intro u ps passes members i j n x n' x' before at_i at_j
      exact (apart u ps passes members).at before at_i at_j
  · rintro ⟨keys, names⟩ u ps passes
    exact .of_apart keys names passes

theorem AllApart.member {p : Part} (apart : h.AllApart v) (members : h.HasParts v ps)
    (inside : p ∈ ps) (holds : x ∈ p.values) : h.AllApart x :=
  fun u ps passes => apart u ps ((PassesBy.self.member members inside holds).trans passes)

/-! ## Nodes in the order of the walk -/

variable (h) in
/-- Nodes tell what a walk has entered, and are marked where it had been entered before. -/
structure Follows (seen last : List Address) (nodes : List (List Value × Snapshot)) : Prop where
  marked : Snapshot.Marked seen nodes
  met : ∀ c, c ∈ last ↔ c ∈ seen ∨ c ∈ Snapshot.met nodes

section Follows

variable {seen mid last : List Address} {nodes more : List (List Value × Snapshot)}

theorem Follows.nil : Follows seen seen [] := ⟨trivial, by simp [Snapshot.met]⟩

theorem Follows.append (first : Follows seen mid nodes) (second : Follows mid last more) :
    Follows seen last (nodes ++ more) where
  marked := Snapshot.marked_append.mpr ⟨first.marked, second.marked.congr fun c => by
    rw [first.met, List.mem_append]⟩
  met c := by
    rw [second.met, first.met, or_assoc, ← List.mem_append, Snapshot.met, Snapshot.met,
      Snapshot.met, List.filterMap_append]

theorem Follows.other (path : List Value) {s : Snapshot} (none : s.head.identity = none) :
    Follows seen seen [(path, s)] :=
  ⟨⟨fun c identity => by simp [none] at identity, trivial⟩, by simp [Snapshot.met, none]⟩

theorem Follows.again (path : List Value) {s : Snapshot} {c : Address}
    (identity : s.head.identity = some c) (marked : s.head.alreadyReferenced = true)
    (old : c ∈ seen) : Follows seen seen [(path, s)] := by
  refine ⟨⟨fun d same => ?_, trivial⟩, by simpa [Snapshot.met, identity] using old⟩
  cases identity.symm.trans same
  exact iff_of_true marked old

theorem Follows.fresh (path : List Value) {s : Snapshot} {c : Address}
    (identity : s.head.identity = some c) (unmarked : s.head.alreadyReferenced = false)
    (new : c ∉ seen) : Follows seen (seen ++ [c]) [(path, s)] := by
  refine ⟨⟨fun d same => ?_, trivial⟩, by simp [Snapshot.met, identity]⟩
  cases identity.symm.trans same
  exact iff_of_false (by simp [unmarked]) new

end Follows

variable (h) in
/-- A walk within a budget enters what the nodes of its snapshot tell. -/
def FollowsWithin (budget : Nat) : Prop := ∀ {seen label v last s}, h.AllApart v →
  h.buildWithin budget seen label v = (last, .ok s) → ∀ path, Follows seen last (s.walk path)

section Walk

variable {budget : Nat} {seen last : List Address} {p : Part} {child : Key × Snapshot}
  {children : List (Key × Snapshot)}

theorem Shown.follows (follows : h.FollowsWithin budget) (apart : ∀ x ∈ p.values, h.AllApart x)
    (shown : h.Shown budget seen p last child) (path : List Value) :
    Follows seen last (child.2.walk path) := by
  cases shown with
  | item built | field built => exact follows (apart _ (by simp [Part.values])) built path
  | @entry k v text mid _ s t _ built built' =>
      have inner := (follows (apart k (by simp [Part.values])) built (path ++ [.text "key"])).append
        (follows (apart v (by simp [Part.values])) built' (path ++ [.text "value"]))
      have walk : (entryNode text s t).walk path = [(path, entryNode text s t)] ++
          (s.walk (path ++ [.text "key"]) ++ t.walk (path ++ [.text "value"])) := by
        rw [Snapshot.walk_eq]
        simp [entryNode, Snapshot.children, Key.text, Key.plain]
      rw [walk]
      exact (Follows.other path rfl).append inner

theorem Walked.follows (follows : h.FollowsWithin budget)
    (apart : ∀ p ∈ ps, ∀ x ∈ p.values, h.AllApart x)
    (walked : h.Walked budget last seen ps children) (path : List Value) :
    Follows seen last (children.flatMap fun e => e.2.walk (path ++ [e.1.value])) := by
  induction walked with
  | nil => exact .nil
  | cons shown _ ih =>
      obtain ⟨first, others⟩ := List.forall_mem_cons.mp apart
      exact (shown.follows follows first _).append (ih others)

variable (h) in
/-- A walk has entered some values, and with each composite its members. -/
structure Exhausts (seen last : List Address) (values : List Value) : Prop where
  kept : ∀ c ∈ seen, c ∈ last
  entered : ∀ x ∈ values, ∀ d, (h.shape x).address? = some d → d ∈ last
  closed : ∀ c ∈ last, c ∈ seen ∨ ∀ ps, h.HasParts (.ref c) ps → ∀ p ∈ ps, ∀ x ∈ p.values,
    ∀ d, (h.shape x).address? = some d → d ∈ last

theorem Exhausts.nil : h.Exhausts seen seen [] where
  kept _ old := old
  entered := by simp
  closed _ old := .inl old

theorem Exhausts.append {mid : List Address} {values more : List Value}
    (first : h.Exhausts seen mid values) (second : h.Exhausts mid last more) :
    h.Exhausts seen last (values ++ more) where
  kept c old := second.kept c (first.kept c old)
  entered x inside d address := by
    rcases List.mem_append.mp inside with before | later
    · exact second.kept d (first.entered x before d address)
    · exact second.entered x later d address
  closed c present := by
    rcases second.closed c present with before | closed
    · refine (first.closed c before).imp_right fun closed ps members p inside x holds d address => ?_
      exact second.kept d (closed ps members p inside x holds d address)
    · exact .inr closed

variable (h) in
def ExhaustsWithin (budget : Nat) : Prop := ∀ {seen label v last s},
  h.buildWithin budget seen label v = (last, .ok s) → h.Exhausts seen last [v]

theorem Shown.exhausts (exhausts : h.ExhaustsWithin budget)
    (shown : h.Shown budget seen p last child) :
    h.Exhausts seen last p.values := by
  cases shown with
  | item built | field built => exact exhausts built
  | entry _ built built' => exact (exhausts built).append (exhausts built')

theorem Walked.exhausts (exhausts : h.ExhaustsWithin budget)
    (walked : h.Walked budget last seen ps children) :
    h.Exhausts seen last (ps.flatMap Part.values) := by
  induction walked with
  | nil => exact .nil
  | cons shown _ ih => exact (shown.exhausts exhausts).append ih

/-- A walk that starts anew enters all composites that can be reached. -/
theorem Exhausts.meets {c : Address} (exhausts : h.Exhausts [] last [v]) (meets : h.Meets v c) :
    c ∈ last := by
  obtain ⟨u, passes, address⟩ := meets
  induction passes generalizing c with
  | self => exact exhausts.entered v List.mem_cons_self c address
  | @member u ps p x _ members inside holds ih =>
      cases place : (h.shape u).address? with
      | none =>
          have leaf : h.isLeaf u := isLeaf_iff.mpr place
          exact absurd leaf (members.not_leaf inside)
      | some b =>
          cases eq_ref_of_address place
          rcases exhausts.closed b (ih place) with none | closed
          · cases none
          · exact closed ps members p inside x holds c address

end Walk

/-! ## Each composite once -/

end Heap

end Assay
