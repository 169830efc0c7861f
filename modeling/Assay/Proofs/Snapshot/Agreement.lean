import Assay.Snapshot.Diff

/-! # Trees without a difference

Two trees give no difference if they show one object, if they are leaves of one class that keep
the same, or if they are composites of one class, neither of them met before, whose children agree:
what is found under a label on the left gives no difference to what is found under it on the right,
and there is no label on the right alone.
-/

namespace Assay

theorem Entries.search_map {κ ν ν' ε : Type} (isKey : κ → Except ε Bool) (f : ν → ν')
    (es : List (κ × ν)) : Entries.search isKey (es.map fun e => (e.1, f e.2)) =
      (Entries.search isKey es).map (·.map f) := by
  induction es with
  | nil => rfl
  | cons e rest ih =>
      simp only [List.map_cons, Entries.search]
      cases isKey e.1 with
      | error f => rfl
      | ok here =>
          cases here with
          | true => rfl
          | false => exact ih

theorem Heap.find?_map {ν ν' : Type} (h : Heap) (v : Value) (f : ν → ν') (es : List (Key × ν)) :
    h.find? v (es.map fun e => (e.1, f e.2)) = (h.find? v es).map (·.map f) := by
  unfold Heap.find? Heap.under?
  cases h.key v with
  | error e => rfl
  | ok key => exact Entries.search_map _ f es

namespace Snapshot

variable (h : Heap)

/-- There is no difference between two trees. -/
def Agrees (s t : Snapshot) : Prop := (compare h s t).2 = .ok none

structure ChildrenAgree (es es' : List (Key × Snapshot)) : Prop where
  forth : ∀ e ∈ es, ∃ s t, h.find? e.1.value es = .ok (some s) ∧
    h.find? e.1.value es' = .ok (some t) ∧ Agrees h s t
  back : ∀ e ∈ es', ∃ s, h.find? e.1.value es = .ok (some s)

/-- Why there is no difference between two trees. -/
inductive Agreement (s t : Snapshot) : Prop where
  | same : s.head.identity.isSome → s.head.identity = t.head.identity → Agreement s t
  | leaf : s.head.type = t.head.type → s.head.isLeaf → t.head.isLeaf →
      h.contentEqual s.head.content t.head.content = .ok true → Agreement s t
  | composite : s.head.type = t.head.type → s.head.isLeaf = false → t.head.isLeaf = false →
      s.head.alreadyReferenced = false → t.head.alreadyReferenced = false →
      ChildrenAgree h s.children t.children → Agreement s t

/-- What is told of two nodes that are not looked into as one of them was met before. -/
def taggedDifference (s t : Snapshot) : Except Fault (Option Snapshot) := do
  let left ← s.taggedSummary h
  let right ← t.taggedSummary h
  return some (.difference left right s.head.label)

/-- Two nodes do not show one object. -/
def Distinct (s t : Snapshot) : Prop := s.head.identity.isSome → s.head.identity ≠ t.head.identity

/-- What two nodes give before any child is looked at, and why. -/
inductive Heads (s t : Snapshot) : Option (Except Fault (Option Snapshot)) → Prop where
  | same : s.head.identity.isSome → s.head.identity = t.head.identity → Heads s t (some (.ok none))
  | types : Distinct s t → s.head.type ≠ t.head.type →
      Heads s t (some ((s.leafDifference h t).map some))
  | equal : Distinct s t → s.head.type = t.head.type → s.head.isLeaf → t.head.isLeaf →
      h.contentEqual s.head.content t.head.content = .ok true → Heads s t (some (.ok none))
  | unequal : Distinct s t → s.head.type = t.head.type → s.head.isLeaf → t.head.isLeaf →
      h.contentEqual s.head.content t.head.content = .ok false →
        Heads s t (some ((s.leafDifference h t).map some))
  | raised {f} : Distinct s t → s.head.type = t.head.type → s.head.isLeaf → t.head.isLeaf →
      h.contentEqual s.head.content t.head.content = .error f → Heads s t (some (.error f))
  | leaf : Distinct s t → s.head.type = t.head.type → s.head.isLeaf ≠ t.head.isLeaf →
      Heads s t (some ((s.leafDifference h t).map some))
  | met : Distinct s t → s.head.type = t.head.type → s.head.isLeaf = false →
      t.head.isLeaf = false → s.head.alreadyReferenced ∨ t.head.alreadyReferenced →
        Heads s t (some (taggedDifference h s t))
  | opened : Distinct s t → s.head.type = t.head.type → s.head.isLeaf = false →
      t.head.isLeaf = false → s.head.alreadyReferenced = false →
        t.head.alreadyReferenced = false → Heads s t none

variable {h}

/-! ## Children -/

theorem candidates_eq (es : List (Key × Snapshot)) :
    candidates h es = es.map fun e => (e.1, e.2, fun t => compare h e.2 t) := by
  induction es with
  | nil => simp only [candidates, List.map_nil]
  | cons e rest ih => simp only [candidates, ih, List.map_cons]

theorem find?_candidates (v : Value) (es : List (Key × Snapshot)) :
    h.find? v (candidates h es) =
      (h.find? v es).map (·.map fun s => (s, fun t => compare h s t)) := by
  rw [candidates_eq]
  exact h.find?_map v (fun s => (s, fun t => compare h s t)) es

/-- Under a label there is no difference only if there are children on both sides. -/
theorem compareUnder_none {es es' : List (Key × Snapshot)} {label : Value} :
    (compareUnder h (candidates h es) es' label).2 = .ok none ↔
      ∃ s t, h.find? label es = .ok (some s) ∧ h.find? label es' = .ok (some t) ∧
        Agrees h s t := by
  unfold compareUnder
  rw [find?_candidates]
  cases left : h.find? label es with
  | error f => simp [Except.map]
  | ok s =>
      cases right : h.find? label es' with
      | error f => cases s <;> simp [Except.map]
      | ok t =>
          have missing (side : Bool) (u : Snapshot) :
              (u.missingItem h side).map some ≠ .ok none := by
            cases u.missingItem h side <;> simp [Except.map]
          cases s with
          | none =>
              cases t with
              | none => simp [Except.map]
              | some t => simpa [Except.map] using missing true t
          | some s =>
              cases t with
              | none => simpa [Except.map] using missing false s
              | some t => simp [Except.map, Agrees]

theorem enter_ne_nil {κ ν ε : Type} {isKey : κ → Except ε Bool} {key : κ} {x : ν}
    {es : List (κ × ν)} : Entries.enter isKey key x es ≠ .ok [] := by
  cases es with
  | nil => simp [Entries.enter]
  | cons e rest =>
      simp only [Entries.enter]
      split
      · simp
      · simp
      · cases Entries.enter isKey key x rest <;> simp [Except.map]

theorem file_ne_nil {ν : Type} {es : List (Key × ν)} {v : Value} {x : ν} :
    h.file es v x ≠ .ok [] := by
  unfold Heap.file Heap.fileWith
  split
  · simp
  · exact enter_ne_nil

/-- Nothing is found in the end exactly if nothing is found under any label. -/
theorem compareLabels_nil {step : Value → Noted (Option Snapshot)} {found : List (Key × Snapshot)}
    {labels : List Value} : (compareLabels h step found labels).2 = .ok [] ↔
      found = [] ∧ ∀ label ∈ labels, (step label).2 = .ok none := by
  induction labels generalizing found with
  | nil => simp [compareLabels]
  | cons label rest ih =>
      simp only [compareLabels, List.forall_mem_cons]
      rcases under : step label with ⟨notes, _ | _ | difference⟩
      · simp
      · simp only [true_and]
        exact ih
      · simp only [Except.ok.injEq, reduceCtorEq, false_and, and_false, iff_false]
        cases filed : h.file found label difference with
        | error f => simp
        | ok found' =>
            simp only
            rw [ih]
            rintro ⟨rfl, _⟩
            exact file_ne_nil filed

/-- What is listed as extra is not there on the left, and all else is. -/
theorem extraLabels_ok {es : List (Key × Candidate)} {es' : List (Key × Snapshot)}
    {extra : List Value} (ok : extraLabels h es es' = .ok extra) :
    (∀ label ∈ extra, h.find? label es = .ok none) ∧
      (extra = [] → ∀ e ∈ es', ∃ c, h.find? e.1.value es = .ok (some c)) := by
  induction es' generalizing extra with
  | nil =>
      cases ok
      exact ⟨by simp, by simp⟩
  | cons e rest ih =>
      simp only [extraLabels] at ok
      cases found : h.find? e.1.value es with
      | error f => simp [found] at ok
      | ok c =>
          cases c with
          | some c =>
              simp only [found] at ok
              obtain ⟨absent, present⟩ := ih ok
              exact ⟨absent, fun none => List.forall_mem_cons.mpr ⟨⟨c, found⟩, present none⟩⟩
          | none =>
              simp only [found] at ok
              cases others : extraLabels h es rest with
              | error f => simp [others, Except.map] at ok
              | ok labels =>
                  simp only [others, Except.map, Except.ok.injEq] at ok
                  subst ok
                  exact ⟨List.forall_mem_cons.mpr ⟨found, (ih others).1⟩, by simp⟩

theorem extraLabels_nil {es : List (Key × Candidate)} {es' : List (Key × Snapshot)}
    (present : ∀ e ∈ es', ∃ c, h.find? e.1.value es = .ok (some c)) :
    extraLabels h es es' = .ok [] := by
  induction es' with
  | nil => rfl
  | cons e rest ih =>
      obtain ⟨c, found⟩ := present e List.mem_cons_self
      simp only [extraLabels, found]
      exact ih fun e later => present e (List.mem_cons_of_mem _ later)

theorem compareChildren_nil {es es' : List (Key × Snapshot)} :
    (compareChildren h (candidates h es) es').2 = .ok [] ↔ ChildrenAgree h es es' := by
  have labels : (candidates h es).map (·.1.value) = es.map (·.1.value) := by
    rw [candidates_eq, List.map_map]
    rfl
  have found (v : Value) : (∃ c, h.find? v (candidates h es) = .ok (some c)) ↔
      ∃ s, h.find? v es = .ok (some s) := by
    rw [find?_candidates]
    rcases h.find? v es with f | (_ | s) <;> simp [Except.map]
  constructor
  · intro none
    simp only [compareChildren] at none
    cases extra : extraLabels h (candidates h es) es' with
    | error f => simp [extra] at none
    | ok labels' =>
        simp only [extra, labels] at none
        obtain ⟨_, under⟩ := compareLabels_nil.mp none
        obtain ⟨absent, present⟩ := extraLabels_ok extra
        have no_extra : labels' = [] := by
          refine List.eq_nil_iff_forall_not_mem.mpr fun label inside => ?_
          obtain ⟨s, _, left, _⟩ :=
            compareUnder_none.mp (under label (List.mem_append_right _ inside))
          obtain ⟨c, there⟩ := (found label).mpr ⟨s, left⟩
          cases there.symm.trans (absent label inside)
        exact ⟨fun e inside => compareUnder_none.mp
            (under _ (List.mem_append_left _ (List.mem_map_of_mem inside))),
          fun e inside => (found _).mp (present no_extra e inside)⟩
  · intro agree
    have extra := extraLabels_nil fun e inside => (found _).mpr (agree.back e inside)
    simp only [compareChildren, extra, labels, List.append_nil]
    refine compareLabels_nil.mpr ⟨rfl, fun label inside => ?_⟩
    obtain ⟨e, member, rfl⟩ := List.mem_map.mp inside
    exact compareUnder_none.mpr (agree.forth e member)

/-! ## Nodes -/

theorem leafDifference_some {s t : Snapshot} :
    (s.leafDifference h t).map some ≠ .ok none := by
  cases s.leafDifference h t <;> simp [Except.map]

/-- There is no difference in children that are filed under no label. -/
theorem composite_none {s : Snapshot} {differences : List (Key × Snapshot)} :
    (composite h s differences).2 = .ok none ↔ differences = [] := by
  cases differences with
  | nil => simp [composite]
  | cons d rest =>
      simp only [composite, List.isEmpty_cons, Bool.false_eq_true, if_false, reduceCtorEq,
        iff_false]
      intro none
      split at none
      · cases none
      · split at none <;> cases none

/-- A difference is told by the heads, or looked for in the children. -/
theorem agrees_iff_heads {s t : Snapshot} : Agrees h s t ↔ compareHeads h s t = some (.ok none) ∨
    compareHeads h s t = none ∧ ChildrenAgree h s.children t.children := by
  obtain ⟨head, children⟩ := s
  unfold Agrees
  simp only [compare]
  cases compareHeads h (.node head children) t with
  | some result => simp
  | none =>
      rw [Snapshot.children, ← compareChildren_nil]
      rcases compareChildren h (candidates h children) t.children with ⟨notes, f | differences⟩
      · simp
      · simp [composite_none]

/-! ## Heads -/

theorem compareHeads_cases (s t : Snapshot) : Heads h s t (compareHeads h s t) := by
  unfold compareHeads
  dsimp only
  split
  · rename_i one
    simp only [Bool.and_eq_true, beq_iff_eq] at one
    exact .same one.1 one.2
  · rename_i apart
    have apart : Distinct s t := fun whole same => apart (by simp [← same, whole])
    split
    · rename_i types
      exact .types apart (by simpa using types)
    · rename_i types
      have types : s.head.type = t.head.type := by simpa using types
      split
      · rename_i leaves
        simp only [Bool.and_eq_true] at leaves
        cases equal : h.contentEqual s.head.content t.head.content with
        | error f => exact .raised apart types leaves.1 leaves.2 equal
        | ok b =>
            cases b with
            | true => exact .equal apart types leaves.1 leaves.2 equal
            | false => exact .unequal apart types leaves.1 leaves.2 equal
      · rename_i leaves
        split
        · rename_i leaf
          refine .leaf apart types fun same => leaves ?_
          simpa [same] using leaf
        · rename_i leaf
          simp only [Bool.or_eq_true, not_or, Bool.not_eq_true] at leaf
          split
          · rename_i met
            exact .met apart types leaf.1 leaf.2 (by simpa using met)
          · rename_i met
            simp only [Bool.or_eq_true, not_or, Bool.not_eq_true] at met
            exact .opened apart types leaf.1 leaf.2 met.1 met.2

theorem Heads.eq {s t : Snapshot} {result : Option (Except Fault (Option Snapshot))}
    (heads : Heads h s t result) : compareHeads h s t = result := by
  have apart (distinct : Distinct s t) :
      (s.head.identity.isSome && s.head.identity == t.head.identity) = false := by
    simpa [Distinct] using distinct
  cases heads with
  | same whole one => simp only [compareHeads, ← one, whole, beq_self_eq_true, Bool.and_self, if_true]
  | types distinct types => simp [compareHeads, apart distinct, types]
  | equal distinct types leaf leaf' told
  | unequal distinct types leaf leaf' told
  | raised distinct types leaf leaf' told =>
      simp [compareHeads, apart distinct, types, leaf, leaf', told]
  | leaf distinct types differ =>
      rcases Bool.eq_false_or_eq_true s.head.isLeaf with leaf | leaf <;>
        rcases Bool.eq_false_or_eq_true t.head.isLeaf with leaf' | leaf' <;>
        simp_all [compareHeads]
  | met distinct types leaf leaf' met =>
      have met : (s.head.alreadyReferenced || t.head.alreadyReferenced) = true := by simpa using met
      simp [compareHeads, apart distinct, types, leaf, leaf', met, taggedDifference]
  | opened distinct types leaf leaf' met met' =>
      simp [compareHeads, apart distinct, types, leaf, leaf', met, met']

theorem taggedDifference_some {s t : Snapshot} : taggedDifference h s t ≠ .ok none := by
  unfold taggedDifference
  cases s.taggedSummary h <;> cases t.taggedSummary h <;>
    simp [bind, Except.bind, pure, Except.pure]

theorem agrees_iff {s t : Snapshot} : Agrees h s t ↔ Agreement h s t := by
  rw [agrees_iff_heads]
  constructor
  · intro agrees
    -- Wherever the heads are told apart, a difference is found: this leaves the three reasons.
    have heads : Heads h s t _ := compareHeads_cases s t
    generalize compareHeads h s t = result at heads agrees
    cases heads with
    | same whole one => exact .same whole one
    | types | unequal | leaf => simp [leafDifference_some] at agrees
    | equal _ types leaf leaf' equal => exact .leaf types leaf leaf' equal
    | raised => simp at agrees
    | met => simp [taggedDifference_some] at agrees
    | opened _ types leaf leaf' met met' =>
        obtain none | ⟨_, children⟩ := agrees
        · cases none
        · exact .composite types leaf leaf' met met' children
  · intro agreement
    by_cases same : s.head.identity.isSome ∧ s.head.identity = t.head.identity
    · exact .inl (Heads.same same.1 same.2).eq
    · have apart : Distinct s t := fun whole one => same ⟨whole, one⟩
      cases agreement with
      | same whole one => exact absurd ⟨whole, one⟩ same
      | leaf types leaf leaf' equal => exact .inl (Heads.equal apart types leaf leaf' equal).eq
      | composite types leaf leaf' met met' children =>
          exact .inr ⟨(Heads.opened apart types leaf leaf' met met').eq, children⟩

end Snapshot

end Assay
