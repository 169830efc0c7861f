import Assay.Proofs.Snapshot.Gathered

/-! # Differences from either side

The difference of two trees is read off the expected one: its labels come first, its classes are
shown, and members that are missing are told apart by the side that lacks them.  Still, with the sides
exchanged the same positions differ, with the two texts exchanged.

Labels are looked up as they are now.  What lies under a label depends only on what the label is equal
to, so a label on one side finds what an equal one on the other side finds, whether or not labels have
changed since they were entered.
-/

namespace Assay

/-- Two results go together, or both raise, and what they raise is known. -/
inductive Concurs {α β : Type} (raises raises' : Fault → Prop) (agree : α → β → Prop) :
    Except Fault α → Except Fault β → Prop where
  | raised {f g} : raises f → raises' g → Concurs raises raises' agree (.error f) (.error g)
  | ok {x y} : agree x y → Concurs raises raises' agree (.ok x) (.ok y)

namespace Snapshot

variable (h : Heap)

/-- A difference leaf, and one at the same path with the two texts exchanged. -/
structure Swapped (l l' : List Value × String × String) : Prop where
  path : List.Forall₂ (fun u v => h.sameKey u v) l.1 l'.1
  texts : l'.2 = l.2.swap

/-- The same difference leaves with their texts exchanged, in any order. -/
def Mirrored (ls ls' : List (List Value × String × String)) : Prop :=
  ∃ ls'', ls''.Perm ls' ∧ List.Forall₂ (Swapped h) ls ls''

/-- Both results are no difference, or both list the same positions with the texts exchanged. -/
structure Mirrors (r r' : Option Snapshot) : Prop where
  nothing : r = none ↔ r' = none
  leaves : Mirrored h (leaves r) (leaves r')

/-- A result is met with one that mirrors it. -/
def Reflects (x y : Except Fault (Option Snapshot)) : Prop :=
  ∀ r, x = .ok r → ∃ r', y = .ok r' ∧ Mirrors h r r'

variable {h} {s t n : Snapshot} {es es' ds ds' : List (Key × Snapshot)} {K : Value → Prop}
  {u v : Value} {step step' : Value → Noted (Option Snapshot)} {us vs : List Value}

section Mirrored

variable {ls ls' ms ms' : List (List Value × String × String)}

theorem mirrored_one {p q : List Value} (path : List.Forall₂ (fun u v => h.sameKey u v) p q)
    (x y : String) : Mirrored h [(p, x, y)] [(q, y, x)] :=
  ⟨_, .refl _, .cons ⟨path, rfl⟩ .nil⟩

theorem Mirrored.append (first : Mirrored h ls ls') (second : Mirrored h ms ms') :
    Mirrored h (ls ++ ms) (ls' ++ ms') := by
  obtain ⟨ls'', perm, swapped⟩ := first
  obtain ⟨ms'', perm', swapped'⟩ := second
  exact ⟨ls'' ++ ms'', perm.append perm', List.rel_append swapped swapped'⟩

theorem Mirrored.perm (mirrored : Mirrored h ls ls') (perm : ls'.Perm ms) : Mirrored h ls ms := by
  obtain ⟨ls'', perm', swapped⟩ := mirrored
  exact ⟨ls'', perm'.trans perm, swapped⟩

theorem Mirrored.under (mirrored : Mirrored h ls ls') (same : h.sameKey u v) :
    Mirrored h (placedUnder u ls) (placedUnder v ls') := by
  obtain ⟨ls'', perm, swapped⟩ := mirrored
  refine ⟨placedUnder v ls'', perm.map _, ?_⟩
  refine List.forall₂_map_left_iff.mpr (List.forall₂_map_right_iff.mpr ?_)
  exact swapped.imp fun l l' one => ⟨.cons same one.path, one.texts⟩

theorem mirrors_none : Mirrors h none none := ⟨Iff.rfl, [], .refl _, .nil⟩

theorem mirrors_some {d d' : Snapshot} (mirrored : Mirrored h d.leafDifferences d'.leafDifferences) :
    Mirrors h (some d) (some d') := ⟨by simp, mirrored⟩

theorem mirrors_difference (x y : String) (label label' : Value) :
    Mirrors h (some (.difference x y label)) (some (.difference y x label')) := by
  apply mirrors_some
  rw [leafDifferences_difference, leafDifferences_difference]
  exact mirrored_one .nil x y

end Mirrored

/-! ## Under one label -/

theorem requireChild_mem {label : String} {c : Snapshot} (found : n.requireChild h label = .ok c) :
    ∃ e ∈ n.children, e.2 = c := by
  obtain ⟨k, inside, _⟩ := Heap.under_ok found
  exact ⟨(k, c), inside, rfl⟩

theorem missingText_mirrored (side : Bool) (x : String) (label : Value) :
    Mirrored h
      (if side then Snapshot.difference missingText x label
        else .difference x missingText label).leafDifferences
      (if !side then Snapshot.difference missingText x label
        else .difference x missingText label).leafDifferences := by
  cases side with
  | true => exact mirrored_one .nil missingText x
  | false => exact mirrored_one .nil x missingText

/-- What one side lacks is told on either side. -/
theorem missingItem_mirrored (made : ∀ m, NodeOf m n → Made m) {side : Bool} {d : Snapshot}
    (told : n.missingItem h side = .ok d) :
    ∃ d', n.missingItem h (!side) = .ok d' ∧ Mirrored h d.leafDifferences d'.leafDifferences := by
  unfold missingItem at told ⊢
  by_cases type : (n.head.type == entryClass) = true
  · simp only [type, if_true] at told ⊢
    cases value : n.requireChild h "value" with
    | error f => simp [value, bind, Except.bind] at told
    | ok c =>
        cases text : c.summary h with
        | error f => simp [value, text, bind, Except.bind] at told
        | ok x =>
            cases key : n.requireChild h "key" with
            | error f => simp [value, text, key, bind, Except.bind] at told
            | ok k =>
                simp only [value, text, key, bind, Except.bind, pure, Except.pure,
                  Except.ok.injEq] at told ⊢
                subst told
                obtain ⟨e, inside, rfl⟩ := requireChild_mem key
                have silent := silent_child made inside
                refine ⟨_, rfl, ?_⟩
                rw [leafDifferences_entry rfl silent, leafDifferences_entry rfl silent]
                exact (missingText_mirrored side x _).under (Heap.sameKey_self _)
  · simp only [type] at told ⊢
    cases text : n.summary h with
    | error f => simp [text, bind, Except.bind] at told
    | ok x =>
        simp only [text, bind, Except.bind, pure, Except.pure, Bool.false_eq_true, if_false,
          Except.ok.injEq] at told ⊢
        subst told
        exact ⟨_, rfl, missingText_mirrored side x _⟩

theorem missingItem_reflects (made : ∀ m, NodeOf m n → Made m) (side : Bool) :
    Reflects h ((n.missingItem h side).map some) ((n.missingItem h !side).map some) := by
  intro r told
  cases lacked : n.missingItem h side with
  | error f => simp [lacked, Except.map] at told
  | ok d =>
      simp only [lacked, Except.map, Except.ok.injEq] at told
      obtain ⟨d', told', mirrored⟩ := missingItem_mirrored made lacked
      exact ⟨some d', by rw [told', Except.map], told ▸ mirrors_some mirrored⟩

/-- Under a label the same is told from either side, if what lies there is compared alike. -/
theorem compareUnder_reflects (made : ∀ e, e ∈ es ∨ e ∈ es' → ∀ m, NodeOf m e.2 → Made m)
    (each : ∀ e ∈ es, ∀ e' ∈ es', Reflects h (compare h e.2 e'.2).2 (compare h e'.2 e.2).2)
    (u : Value) : Reflects h (compareUnder h (candidates h es) es' u).2
      (compareUnder h (candidates h es') es u).2 := by
  unfold compareUnder
  rw [find?_candidates, find?_candidates]
  cases left : h.find? u es with
  | error f => exact fun r told => nomatch told
  | ok c =>
      cases right : h.find? u es' with
      | error f => cases c <;> exact fun r told => nomatch told
      | ok d =>
          cases c with
          | none =>
              cases d with
              | none => exact fun r told => nomatch told
              | some d =>
                  obtain ⟨k, inside, _⟩ := Heap.under?_ok right
                  exact missingItem_reflects (made (k, d) (.inr inside)) true
          | some c =>
              obtain ⟨k, inside, _⟩ := Heap.under?_ok left
              cases d with
              | none => exact missingItem_reflects (made (k, c) (.inl inside)) false
              | some d =>
                  obtain ⟨k', inside', _⟩ := Heap.under?_ok right
                  exact each (k, c) inside (k', d) inside'

/-! ## Under all labels -/

variable (h K) in
/-- What has been gathered from two sides.  The labels of each side cover those of the other, and what
    is told under a label from one side is mirrored by what is told from the other. -/
structure GatheredFacing (step step' : Value → Noted (Option Snapshot)) (us vs : List Value)
    (ds ds' : List (Key × Snapshot)) : Prop where
  left : Gathered h step us ds
  right : Gathered h step' vs ds'
  known : ∀ u ∈ us, K u
  known' : ∀ v ∈ vs, K v
  covers : ∀ u ∈ us, ∃ v ∈ vs, h.sameKey u v
  covers' : ∀ v ∈ vs, ∃ u ∈ us, h.sameKey v u
  told : ∀ u ∈ us, ∃ r, (step u).2 = .ok r
  same' : SameTold h K step'
  reflects : ∀ u, Reflects h (step u).2 (step' u).2

namespace GatheredFacing

variable (facing : GatheredFacing h K step step' us vs ds ds') (labels : LabelsCompare h K)
  {e e' : Key × Snapshot}

include facing

theorem own (inside : e ∈ ds) : K e.1.value := facing.known _ (facing.left.among e inside).1

theorem own' (inside : e ∈ ds') : K e.1.value := facing.known' _ (facing.right.among e inside).1

/-- Differences under labels that are the same are mirrored. -/
theorem mirrored (inside : e ∈ ds) (inside' : e' ∈ ds') (one : h.sameKey e.1.value e'.1.value) :
    Mirrored h e.2.leafDifferences e'.2.leafDifferences := by
  obtain ⟨r', there, mirrors⟩ := facing.reflects e.1.value _ (facing.left.among e inside).2
  have here := facing.same' _ _ _ (facing.own inside) (facing.own' inside') one there
  obtain rfl := Except.ok.inj (here.symm.trans (facing.right.among e' inside').2)
  exact mirrors.leaves

include labels

theorem forth (inside : e ∈ ds) : ∃ e' ∈ ds', h.sameKey e.1.value e'.1.value := by
  obtain ⟨listed, here⟩ := facing.left.among e inside
  obtain ⟨v, there, one⟩ := facing.covers _ listed
  obtain ⟨r', told', mirrors⟩ := facing.reflects e.1.value _ here
  have known := facing.own inside
  have known' := facing.known' v there
  cases r' with
  | none => exact absurd (mirrors.nothing.mpr rfl) (by simp)
  | some d =>
      have under := facing.same' _ _ _ known known' one told'
      obtain ⟨e', inside', one'⟩ := facing.right.covers v there d under
      exact ⟨e', inside', labels.join known (facing.own' inside') known' one one'⟩

theorem back (inside' : e' ∈ ds') : ∃ e ∈ ds, h.sameKey e.1.value e'.1.value := by
  obtain ⟨listed, here⟩ := facing.right.among e' inside'
  obtain ⟨u, there, one⟩ := facing.covers' _ listed
  obtain ⟨r, under⟩ := facing.told u there
  obtain ⟨r', told', mirrors⟩ := facing.reflects u r under
  have known := facing.known u there
  have known' := facing.own' inside'
  have here' := facing.same' _ _ _ known known' (labels.symm _ _ known' known one) told'
  obtain rfl := Except.ok.inj (here'.symm.trans here)
  cases r with
  | none => exact absurd (mirrors.nothing.mp rfl) (by simp)
  | some d =>
      obtain ⟨e, inside, one'⟩ := facing.left.covers u there d under
      exact ⟨e, inside, labels.join (facing.own inside) known' known one' one⟩

/-- What is gathered on two sides is told under the same labels. -/
theorem pairs : ∃ m : List ((Key × Snapshot) × (Key × Snapshot)),
    m.map (·.1) = ds ∧ (m.map (·.2)).Perm ds' ∧
      ∀ q ∈ m, h.sameKey q.1.1.value q.2.1.value ∧
        Mirrored h q.1.2.leafDifferences q.2.2.leafDifferences := by
  have left (e) (inside : e ∈ ds) (e₁) (inside₁ : e₁ ∈ ds) (e') (inside' : e' ∈ ds')
      (one : h.sameKey e.1.value e'.1.value) (one₁ : h.sameKey e₁.1.value e'.1.value) : e = e₁ :=
    facing.left.unique e inside e₁ inside₁ (labels.join (facing.own inside) (facing.own inside₁)
      (facing.own' inside') one one₁)
  have right (e) (inside : e ∈ ds) (e') (inside' : e' ∈ ds') (e₁) (inside₁ : e₁ ∈ ds')
      (one : h.sameKey e.1.value e'.1.value) (one₁ : h.sameKey e.1.value e₁.1.value) : e' = e₁ := by
    have known := facing.own inside
    have known' := facing.own' inside'
    have known₁ := facing.own' inside₁
    exact facing.right.unique e' inside' e₁ inside₁ (labels.join known' known₁ known
      (labels.symm _ _ known known' one) (labels.symm _ _ known known₁ one₁))
  obtain ⟨m, first, second, both⟩ := exists_pairs facing.left.once facing.right.once
    (fun _ => facing.forth labels) (fun _ => facing.back labels) left right
  refine ⟨m, first, second, fun q member => ⟨both q member, ?_⟩⟩
  exact facing.mirrored (first ▸ List.mem_map_of_mem member)
    (second.mem_iff.mp (List.mem_map_of_mem member)) (both q member)

end GatheredFacing

/-- The differences between children are mirrored if those of each two of them are. -/
theorem children_reflected (labels : LabelsCompare h K)
    (left : ∀ e ∈ s.children, K e.1.value) (right : ∀ e ∈ t.children, K e.1.value)
    (made : ∀ e, e ∈ s.children ∨ e ∈ t.children → ∀ m, NodeOf m e.2 → Made m)
    (each : ∀ e ∈ s.children, ∀ e' ∈ t.children,
      Reflects h (compare h e.2 e'.2).2 (compare h e'.2 e.2).2)
    (told : (compareChildren h (candidates h s.children) t.children).2 = .ok ds) :
    ∃ ds', (compareChildren h (candidates h t.children) s.children).2 = .ok ds' ∧
      ∃ m : List ((Key × Snapshot) × (Key × Snapshot)), m.map (·.1) = ds ∧ (m.map (·.2)).Perm ds' ∧
        ∀ q ∈ m, h.sameKey q.1.1.value q.2.1.value ∧
          Mirrored h q.1.2.leafDifferences q.2.2.leafDifferences := by
  obtain ⟨gathered, under, hashed⟩ := compareChildren_gathers labels left right told
  have known := labelValues_known (h := h) left right
  have known' := labelValues_known (h := h) right left
  have same' := labels.sameTold right left
  have reflects := compareUnder_reflects made each
  have covers := labelValues_covers labels left right fun e own => hashed e (.inl own)
  have covers' := labelValues_covers labels right left fun e own => hashed e (.inr own)
  obtain ⟨ds', told'⟩ :
      ∃ ds', (compareChildren h (candidates h t.children) s.children).2 = .ok ds' := by
    cases told' : (compareChildren h (candidates h t.children) s.children).2 with
    | ok ds' => exact ⟨ds', rfl⟩
    | error f =>
        obtain ⟨v, listed, raised⟩ := compareChildren_raises labels right left
          (fun e inside => hashed e inside.symm) told'
        -- The same label is told something from the other side.
        obtain ⟨u, there, one⟩ := covers' v listed
        obtain ⟨r, here⟩ := under u there
        obtain ⟨r', here', _⟩ := reflects u r here
        have back := labels.symm _ _ (known' v listed) (known u there) one
        cases raised.symm.trans (same' u v r' (known u there) (known' v listed) back here')
  obtain ⟨gathered', _, _⟩ := compareChildren_gathers labels right left told'
  have facing : GatheredFacing h K _ _ _ _ ds ds' :=
    ⟨gathered, gathered', known, known', covers, covers', under, same', reflects⟩
  exact ⟨ds', told', facing.pairs labels⟩

/-! ## Nodes -/

theorem Opened.symm (on : Opened s t) : Opened t s where
  types := on.types.symm
  composite := on.composite.symm
  fresh := on.fresh.symm
  apart some same := on.apart (same ▸ some) same.symm

theorem leafDifference_reflects : Reflects h ((s.leafDifference h t).map some)
    ((t.leafDifference h s).map some) := by
  intro r told
  unfold leafDifference at told ⊢
  cases left : s.summary h with
  | error f => simp [left, bind, Except.bind, Except.map] at told
  | ok x =>
      cases right : t.summary h with
      | error f => simp [left, right, bind, Except.bind, Except.map] at told
      | ok y =>
          simp only [left, right, bind, Except.bind, pure, Except.pure, Except.map,
            Except.ok.injEq] at told ⊢
          subst told
          exact ⟨_, rfl, mirrors_difference x y _ _⟩

theorem taggedDifference_reflects :
    Reflects h (taggedDifference h s t) (taggedDifference h t s) := by
  intro r told
  unfold taggedDifference at told ⊢
  cases left : s.taggedSummary h with
  | error f => simp [left, bind, Except.bind] at told
  | ok x =>
      cases right : t.taggedSummary h with
      | error f => simp [left, right, bind, Except.bind] at told
      | ok y =>
          simp only [left, right, bind, Except.bind, pure, Except.pure, Except.ok.injEq] at told ⊢
          subst told
          exact ⟨_, rfl, mirrors_difference x y _ _⟩

variable (h) in
/-- Leaves of one class are compared alike from either side. -/
def SymmetricContents (s t : Snapshot) : Prop :=
  ∀ n m, NodeOf n s → NodeOf m t → n.head.isLeaf → m.head.isLeaf → n.head.type = m.head.type →
    ∀ b, h.contentEqual n.head.content m.head.content = .ok b ↔
      h.contentEqual m.head.content n.head.content = .ok b

theorem Distinct.symm (distinct : Distinct s t) : Distinct t s :=
  fun some same => distinct (same ▸ some) same.symm

/-- What two nodes give that are not looked into is mirrored. -/
theorem compareHeads_reflects (symm : SymmetricContents h s t)
    {result : Except Fault (Option Snapshot)} (told : compareHeads h s t = some result) :
    ∃ result', compareHeads h t s = some result' ∧ Reflects h result result' := by
  have heads : Heads h s t _ := compareHeads_cases s t
  rw [told] at heads
  have nothing : Reflects h (.ok none) (.ok none) := fun r same =>
    ⟨r, same, Except.ok.inj same ▸ mirrors_none⟩
  have contents := symm s t .self .self
  cases heads with
  | same whole one => exact ⟨_, (Heads.same (one ▸ whole) one.symm).eq, nothing⟩
  | types distinct types =>
      exact ⟨_, (Heads.types distinct.symm types.symm).eq, leafDifference_reflects⟩
  | equal distinct types leaf leaf' equal =>
      have back := (contents leaf leaf' types true).mp equal
      exact ⟨_, (Heads.equal distinct.symm types.symm leaf' leaf back).eq, nothing⟩
  | unequal distinct types leaf leaf' unequal =>
      have back := (contents leaf leaf' types false).mp unequal
      exact ⟨_, (Heads.unequal distinct.symm types.symm leaf' leaf back).eq, leafDifference_reflects⟩
  | raised distinct types leaf leaf' raised =>
      cases back : h.contentEqual t.head.content s.head.content with
      | error f =>
          refine ⟨_, (Heads.raised distinct.symm types.symm leaf' leaf back).eq, ?_⟩
          exact fun r told => nomatch told
      | ok b => cases raised.symm.trans ((contents leaf leaf' types b).mpr back)
  | leaf distinct types differ =>
      exact ⟨_, (Heads.leaf distinct.symm types.symm differ.symm).eq, leafDifference_reflects⟩
  | met distinct types leaf leaf' met =>
      exact ⟨_, (Heads.met distinct.symm types.symm leaf' leaf met.symm).eq,
        taggedDifference_reflects⟩

variable (h) in
/-- A value is a label in one of two trees. -/
def LabelIn (s t : Snapshot) (u : Value) : Prop :=
  ∃ n e, (NodeOf n s ∨ NodeOf n t) ∧ e ∈ n.children ∧ e.1.value = u

variable (h) in
/-- Two trees as they were made, whose difference can be read from either side: their labels compare
    as equals do and can be written, and leaves of one class are compared alike. -/
structure Mirrorable (s t : Snapshot) : Prop where
  made : ∀ n, NodeOf n s ∨ NodeOf n t → Made n
  labels : LabelsCompare h (LabelIn s t)
  named : ∀ n, NodeOf n s ∨ NodeOf n t → ∃ name, noteName h n.head = .ok name
  contents : SymmetricContents h s t

theorem Mirrorable.under (both : Mirrorable h s t) {e e' : Key × Snapshot} (inside : e ∈ s.children)
    (inside' : e' ∈ t.children) : Mirrorable h e.2 e'.2 := by
  have lift {n : Snapshot} (node : NodeOf n e.2 ∨ NodeOf n e'.2) : NodeOf n s ∨ NodeOf n t :=
    node.imp (.child inside) (.child inside')
  refine ⟨fun n node => both.made n (lift node), both.labels.mono ?_,
    fun n node => both.named n (lift node),
    fun n m left right => both.contents n m (left.child inside) (right.child inside')⟩
  rintro u ⟨n, l, node, own, same⟩
  exact ⟨n, l, lift node, own, same⟩

theorem Mirrorable.symm (both : Mirrorable h s t) : Mirrorable h t s where
  made n node := both.made n node.symm
  labels := both.labels.mono fun _ ⟨n, e, inside, own, same⟩ => ⟨n, e, inside.symm, own, same⟩
  named n node := both.named n node.symm
  contents n m left right leaf leaf' type b :=
    (both.contents m n right left leaf' leaf type.symm b).symm

theorem mirrored_flatMap {m : List ((Key × Snapshot) × (Key × Snapshot))}
    (each : ∀ q ∈ m, h.sameKey q.1.1.value q.2.1.value ∧
      Mirrored h q.1.2.leafDifferences q.2.2.leafDifferences) :
    Mirrored h ((m.map (·.1)).flatMap fun e => placedUnder e.1.value e.2.leafDifferences)
      ((m.map (·.2)).flatMap fun e => placedUnder e.1.value e.2.leafDifferences) := by
  induction m with
  | nil => exact ⟨[], .refl _, .nil⟩
  | cons q rest ih =>
      obtain ⟨⟨same, mirrored⟩, later⟩ := List.forall_mem_cons.mp each
      exact (mirrored.under same).append (ih later)

/-- Labels under an entry are those of its key and its value. -/
theorem Made.labels (made : Made n) (type : n.head.type = entryClass)
    (fresh : n.head.alreadyReferenced = false) :
    ∀ e ∈ n.children, e.1 = .text "key" ∨ e.1 = .text "value" := by
  obtain ⟨k, v, children⟩ := made.entry type fresh
  simp [children]

/-- What is gathered under an entry is gathered under its key and its value. -/
theorem Gathered.entry (gathered : Gathered h step (labelValues h s t) ds)
    (texts : ∀ e, e ∈ s.children ∨ e ∈ t.children → e.1 = .text "key" ∨ e.1 = .text "value") :
    ∀ e ∈ ds, e.1 = .text "key" ∨ e.1 = .text "value" := by
  intro e inside
  have current : h.key e.1.value = .ok e.1 := gathered.current e inside
  have text {label : String} {k : Key} (same : k.value = e.1.value) (own : k = .text label) :
      e.1 = .text label := by
    have now : h.key (.text label) = .ok (.text label) := Heap.key_text label
    have value : e.1.value = .text label := by rw [← same, own]; rfl
    rw [value, now] at current
    exact (Except.ok.inj current).symm
  obtain ⟨k, listed, same⟩ := List.mem_map.mp (gathered.among e inside).1
  have label : k = .text "key" ∨ k = .text "value" := by
    rcases mem_labelOrder.mp listed with ⟨e', own, rfl⟩ | ⟨e', other, rfl, _⟩
    · exact texts e' (.inl own)
    · exact texts e' (.inr other)
  exact label.imp (text same) (text same)

theorem compare_opened (on : Opened s t) : (compare h s t).2 =
    match (compareChildren h (candidates h s.children) t.children).2 with
    | .error f => .error f
    | .ok ds => (composite h s ds).2 := by
  have heads : compareHeads h s t = none := opened_iff.mpr on
  obtain ⟨head, children⟩ := s
  obtain ⟨head', children'⟩ := t
  simp only [compare, heads, Snapshot.children]
  rcases compareChildren h (candidates h children) children' with ⟨notes, f | ds⟩ <;> rfl

theorem labelIn_children : (∀ e ∈ s.children, LabelIn s t e.1.value) ∧
    ∀ e ∈ t.children, LabelIn s t e.1.value :=
  ⟨fun e inside => ⟨s, e, .inl .self, inside, rfl⟩, fun e inside => ⟨t, e, .inr .self, inside, rfl⟩⟩

section Both

variable (both : Mirrorable h s t)

include both

theorem Mirrorable.made_child {e : Key × Snapshot} (inside : e ∈ s.children ∨ e ∈ t.children)
    (m : Snapshot) (node : NodeOf m e.2) : Made m :=
  both.made m (inside.imp (fun own => node.child own) fun other => node.child other)

/-- The differences that are found inside a composite are shown. -/
theorem Mirrorable.composed (on : Opened s t)
    (children : (compareChildren h (candidates h s.children) t.children).2 = .ok ds) :
    ∃ r, (composite h s ds).2 = .ok r ∧ (r = none ↔ ds = []) ∧
      leaves r = ds.flatMap fun e => placedUnder e.1.value e.2.leafDifferences := by
  obtain ⟨left, right⟩ := labelIn_children (s := s) (t := t)
  have gathered := (compareChildren_gathers both.labels left right children).1
  -- Both nodes show an entry, or neither does.
  have texts (type : s.head.type = entryClass) (e : Key × Snapshot)
      (inside : e ∈ s.children ∨ e ∈ t.children) : e.1 = .text "key" ∨ e.1 = .text "value" :=
    inside.elim ((both.made s (.inl .self)).labels type on.fresh.1 e)
      ((both.made t (.inr .self)).labels (on.types ▸ type) on.fresh.2 e)
  have shown := Snapshot.composed (h := h) (fun m node => both.made m (.inl node)) on.fresh.1
    (fun type => gathered.entry (texts type))
  obtain ⟨name, named⟩ := both.named s (.inl .self)
  cases told : (composite h s ds).2 with
  | error f => cases named.symm.trans (told ▸ shown).of_error
  | ok r =>
      obtain ⟨listed, none, _⟩ := (told ▸ shown).of_ok
      exact ⟨r, rfl, none, listed⟩

/-- Two composites that are looked into are mirrored if their children are. -/
theorem Mirrorable.composites_reflect (on : Opened s t)
    (each : ∀ e ∈ s.children, ∀ e' ∈ t.children,
      Reflects h (compare h e.2 e'.2).2 (compare h e'.2 e.2).2) :
    Reflects h (compare h s t).2 (compare h t s).2 := by
  intro r told
  rw [compare_opened on] at told
  rw [compare_opened on.symm]
  obtain ⟨left, right⟩ := labelIn_children (s := s) (t := t)
  cases children : (compareChildren h (candidates h s.children) t.children).2 with
  | error f => simp [children] at told
  | ok ds =>
      simp only [children] at told
      obtain ⟨ds', children', m, rfl, perm, mirrored⟩ :=
        children_reflected both.labels left right (fun e => both.made_child) each children
      obtain ⟨r₁, here, none, listed⟩ := both.composed on children
      obtain ⟨r', there, none', listed'⟩ := both.symm.composed on.symm children'
      cases here.symm.trans told
      simp only [children', there]
      refine ⟨r', rfl, ?_, ?_⟩
      · rw [none, none', ← List.length_eq_zero_iff, ← List.length_eq_zero_iff, ← perm.length_eq,
          List.length_map, List.length_map]
      · rw [listed, listed']
        exact (mirrored_flatMap mirrored).perm (perm.flatMap_right _)

end Both

/-- A comparison that returns is mirrored by the one from the other side. -/
theorem Mirrorable.reflects (both : Mirrorable h s t) :
    Reflects h (compare h s t).2 (compare h t s).2 := by
  induction s using induction generalizing t with
  | step s ih =>
      cases heads : compareHeads h s t with
      | none =>
          apply both.composites_reflect (opened_iff.mp heads)
          intro e inside e' inside'
          exact ih e inside (both.under inside inside')
      | some result =>
          obtain ⟨result', heads', reflects⟩ := compareHeads_reflects both.contents heads
          obtain ⟨head, children⟩ := s
          obtain ⟨head', children'⟩ := t
          simpa only [compare, heads, heads'] using reflects

/-! ## What is raised -/

variable (h) in
/-- Why two trees cannot be compared: something that is asked about them raises, or a label has
    changed since it was entered. -/
inductive Unsaid (s t : Snapshot) (f : Fault) : Prop where
  | unanswered : Unanswered h s t f → Unsaid s t f
  | changed {n : Snapshot} {e} : NodeOf n s ∨ NodeOf n t → e ∈ n.children → ¬ h.Current e.1 →
      Unsaid s t f

variable {f : Fault}

theorem error_of_map_some {x : Except Fault Snapshot} (raised : x.map some = .error f) :
    x = .error f := by
  cases x with
  | error f' => simpa [Except.map] using raised
  | ok d => simp [Except.map] at raised

theorem leafDifference_raises (raised : (s.leafDifference h t).map some = .error f) :
    Unanswered h s t f := by
  unfold leafDifference at raised
  cases left : s.summary h with
  | error f' =>
      simp only [left, bind, Except.bind, Except.map, Except.error.injEq] at raised
      exact .summary (.inl .self) (raised ▸ left)
  | ok x =>
      cases right : t.summary h with
      | error f' =>
          simp only [left, right, bind, Except.bind, Except.map, Except.error.injEq] at raised
          exact .summary (.inr .self) (raised ▸ right)
      | ok y => simp [left, right, bind, Except.bind, Except.map, pure, Except.pure] at raised

theorem taggedDifference_raises (raised : taggedDifference h s t = .error f) :
    Unanswered h s t f := by
  unfold taggedDifference at raised
  cases left : s.taggedSummary h with
  | error f' =>
      simp only [left, bind, Except.bind, Except.error.injEq] at raised
      exact .summary (.inl .self) (taggedSummary_error (raised ▸ left))
  | ok x =>
      cases right : t.taggedSummary h with
      | error f' =>
          simp only [left, right, bind, Except.bind, Except.error.injEq] at raised
          exact .summary (.inr .self) (taggedSummary_error (raised ▸ right))
      | ok y => simp [left, right, bind, Except.bind, pure, Except.pure] at raised

theorem compareHeads_raises (raised : compareHeads h s t = some (.error f)) :
    Unanswered h s t f := by
  have heads : Heads h s t _ := compareHeads_cases s t
  generalize compareHeads h s t = result at heads raised
  cases heads with
  | same | equal | opened => simp at raised
  | types | unequal | leaf => exact leafDifference_raises (Option.some.inj raised)
  | raised _ _ _ _ failed =>
      cases raised
      exact .content .self .self failed
  | met => exact taggedDifference_raises (Option.some.inj raised)

/-- Under a label that has not changed only what lies there raises. -/
theorem compareUnder_raises (labels : LabelsCompare h K) (left : ∀ e ∈ es, K e.1.value)
    (right : ∀ e ∈ es', K e.1.value) {e : Key × Snapshot} (inside : e ∈ es ∨ e ∈ es')
    (current : h.Current e.1)
    (raised : (compareUnder h (candidates h es) es' e.1.value).2 = .error f) :
    (∃ c side, (c ∈ es ∨ c ∈ es') ∧ c.2.missingItem h side = .error f) ∨
      ∃ c ∈ es, ∃ d ∈ es', (compare h c.2 d.2).2 = .error f := by
  have known : K e.1.value := inside.elim (left e) (right e)
  have digest := digest_of_current current
  obtain ⟨c, found⟩ := labels.find?_answers left known digest
  obtain ⟨d, found'⟩ := labels.find?_answers right known digest
  unfold compareUnder at raised
  rw [find?_candidates, found, found'] at raised
  cases c with
  | none =>
      cases d with
      | none =>
          -- The label is found where it was entered.
          have absent := find?_none current found
          have absent' := find?_none current found'
          rcases inside with own | other
          · cases (Heap.isFor_self e.1).symm.trans (absent e own)
          · cases (Heap.isFor_self e.1).symm.trans (absent' e other)
      | some d =>
          obtain ⟨k, there, _⟩ := Heap.under?_ok found'
          exact .inl ⟨(k, d), true, .inr there, error_of_map_some raised⟩
  | some c =>
      obtain ⟨k, there, _⟩ := Heap.under?_ok found
      cases d with
      | none =>
          exact .inl ⟨(k, c), false, .inl there, error_of_map_some raised⟩
      | some d =>
          obtain ⟨k', there', _⟩ := Heap.under?_ok found'
          exact .inr ⟨(k, c), there, (k', d), there', raised⟩

/-- Where no label of two composites has changed, what their children raise is raised by two of them,
    or in telling what one side lacks. -/
theorem Mirrorable.children_raise (both : Mirrorable h s t)
    (bare : ∀ n, NodeOf n s ∨ NodeOf n t → ¬ Bare n)
    (current : ∀ e, e ∈ s.children ∨ e ∈ t.children → h.Current e.1)
    (raised : (compareChildren h (candidates h s.children) t.children).2 = .error f) :
    Unanswered h s t f ∨
      ∃ c ∈ s.children, ∃ d ∈ t.children, (compare h c.2 d.2).2 = .error f := by
  obtain ⟨left, right⟩ := labelIn_children (s := s) (t := t)
  obtain ⟨u, listed, under⟩ := compareChildren_raises both.labels left right
    (fun e inside => ⟨_, digest_of_current (current e inside)⟩) raised
  obtain ⟨e, inside, rfl⟩ := exists_of_mem_labelValues listed
  refine (compareUnder_raises both.labels left right inside (current e inside) under).imp_left ?_
  rintro ⟨c, side, there, lacked⟩
  have lift {m : Snapshot} (node : NodeOf m c.2) : NodeOf m s ∨ NodeOf m t :=
    there.imp (fun own => node.child own) fun other => node.child other
  have delivers := missingItem_delivers (h := h) (both.made_child there) (bare _ (lift .self)) side
  obtain ⟨m, node, failed⟩ := (lacked ▸ delivers).of_error
  exact .summary (lift node) failed

/-- Where no label has changed a comparison raises only what is raised where it asks. -/
theorem Mirrorable.raises (both : Mirrorable h s t)
    (bare : ∀ n, NodeOf n s ∨ NodeOf n t → ¬ Bare n)
    (current : ∀ n, NodeOf n s ∨ NodeOf n t → ∀ e ∈ n.children, h.Current e.1)
    (raised : (compare h s t).2 = .error f) : Unanswered h s t f := by
  induction s using induction generalizing t with
  | step s ih =>
      cases heads : compareHeads h s t with
      | some result =>
          apply compareHeads_raises
          obtain ⟨head, children⟩ := s
          simp only [compare, heads] at raised
          rw [heads, raised]
      | none =>
          have on := opened_iff.mp heads
          rw [compare_opened on] at raised
          cases children : (compareChildren h (candidates h s.children) t.children).2 with
          | ok ds =>
              obtain ⟨r, told, _⟩ := both.composed on children
              simp [children, told] at raised
          | error f' =>
              obtain rfl : f' = f := by simpa [children] using raised
              have unchanged (e : Key × Snapshot) (inside : e ∈ s.children ∨ e ∈ t.children) :
                  h.Current e.1 :=
                inside.elim (current s (.inl .self) e) (current t (.inr .self) e)
              rcases both.children_raise bare unchanged children with told | ⟨c, own, d, other, failed⟩
              · exact told
              · have lift {m : Snapshot} (node : NodeOf m c.2 ∨ NodeOf m d.2) :
                    NodeOf m s ∨ NodeOf m t :=
                  node.imp (fun left => left.child own) fun right => right.child other
                have asked := ih c own (both.under own other) (fun n node => bare n (lift node))
                  (fun n node => current n (lift node)) failed
                exact asked.under own other

/-- The difference of two trees and that with the sides exchanged mirror each other. -/
theorem Mirrorable.diff (both : Mirrorable h s t)
    (bare : ∀ n, NodeOf n s ∨ NodeOf n t → ¬ Bare n) :
    Concurs (Unsaid h s t) (Unsaid h t s) (Mirrors h) (s.diff h (some t)).2
      (t.diff h (some s)).2 := by
  have unsaid {s t : Snapshot} (both : Mirrorable h s t)
      (bare : ∀ n, NodeOf n s ∨ NodeOf n t → ¬ Bare n) {f : Fault}
      (raised : (compare h s t).2 = .error f) : Unsaid h s t f := by
    by_cases current : ∀ n, NodeOf n s ∨ NodeOf n t → ∀ e ∈ n.children, h.Current e.1
    · exact .unanswered (both.raises bare current raised)
    · simp only [not_forall] at current
      obtain ⟨n, node, e, inside, changed⟩ := current
      exact .changed node inside changed
  simp only [Snapshot.diff]
  cases left : (compare h s t).2 with
  | ok r =>
      obtain ⟨r', right, mirrors⟩ := both.reflects r left
      rw [right]
      exact .ok mirrors
  | error f =>
      cases right : (compare h t s).2 with
      | ok r =>
          obtain ⟨r', left', _⟩ := both.symm.reflects r right
          cases left.symm.trans left'
      | error g =>
          exact .raised (unsaid both bare left)
            (unsaid both.symm (fun n node => bare n node.symm) right)

end Snapshot

namespace Heap

variable {h h₁ h₂ : Heap} {v w : Value} {s t : Snapshot}

/-- Two objects with a list in a field that has a point for its name.  The first object lists two
    points; the second of them has been made the same as the first since it was entered, and only its
    list is shown. -/
def unwritten (second : List (String × Value)) : Heap where
  classes := Standard.classes Sample.classes
  objects :=
    let point (x : Int) : Object :=
      { cls := "FrozenPoint", attrs := [("x", .int x), ("y", .int 2)] }
    let list (n : Int) : Object := { cls := "list", body := .sequence .list [.int n] }
    let key (a : Address) (x : Int) : Key := ⟨.ref a, .ofTuple [.ofInt x, .ofInt 2]⟩
    let dict (entries : List (Key × Value)) : Object :=
      { cls := "dict", body := .mapping .dict entries }
    #[point 1, { cls := "FrozenPoint", attrs := second }, point 1, list 1, list 2, list 9,
      dict [(key 0 1, .ref 3), (key 1 3, .ref 4)], dict [(key 2 1, .ref 5)],
      { cls := "Pairs", attrs := [("pairs", .ref 6)] },
      { cls := "Pairs", attrs := [("pairs", .ref 7)] }]

end Heap

end Assay
