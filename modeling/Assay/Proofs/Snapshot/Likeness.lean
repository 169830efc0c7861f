import Assay.Proofs.Snapshot.Paired

/-! # Likeness and differences

Two comparisons of trees that stand apart: one looks into the values themselves, the other into their
snapshots.  There is only one way to each composite, so none is skipped for having been met before,
neither by the one nor where the snapshots are taken, and both come by the same members in pairs.
-/

namespace Assay.Heap

variable {h : Heap} {a b x y v : Value} {ps : List Part}

/-! ## Trees -/

variable (h) in
/-- A value is a finite tree, and there is only one way to each of its composites. -/
def Tree (v : Value) : Prop := ∃ cs, h.Forest [v] cs ∧ cs.Nodup

theorem Separate.trees (separate : h.Separate a b) : h.Tree a ∧ h.Tree b := by
  obtain ⟨_, forest, once⟩ := separate
  obtain ⟨_, _, tree, tree', rfl⟩ := forest.split
  obtain ⟨left, right, _⟩ := List.nodup_append.mp once
  exact ⟨⟨_, tree, left⟩, ⟨_, tree', right⟩⟩

theorem Forest.tree {vs : List Value} {cs : List Address} (forest : h.Forest vs cs)
    (once : cs.Nodup) (member : v ∈ vs) : h.Tree v := by
  induction vs generalizing cs with
  | nil => cases member
  | cons w vs ih =>
      obtain ⟨first, rest, tree, others, rfl⟩ := forest.split
      obtain ⟨left, right, _⟩ := List.nodup_append.mp once
      rcases List.mem_cons.mp member with rfl | later
      · exact ⟨first, tree, left⟩
      · exact ih others right later

theorem Tree.branches (tree : h.Tree v) {c : Address} (address : (h.shape v).address? = some c) :
    ∃ inner, h.Forest (h.branches v) inner ∧ inner.Nodup ∧ c ∉ inner := by
  obtain ⟨_, forest, once⟩ := tree
  obtain ⟨inner, below, rfl⟩ := forest.root address
  obtain ⟨fresh, apart⟩ := List.nodup_cons.mp once
  exact ⟨inner, below, apart, fresh⟩

/-! ## Snapshots of trees -/

variable (h) in
/-- A snapshot has been taken of a value none of whose composites had been entered before. -/
def Fresh (v : Value) (s : Snapshot) : Prop :=
  ∃ budget seen label last, h.buildWithin budget seen label v = (last, .ok s) ∧
    ∀ c ∈ seen, ¬ h.HasComposite v c

theorem fresh_leaf {budget : Nat} {seen last : List Address} {label : Value} {s : Snapshot}
    (leaf : h.isLeaf v) (built : h.buildWithin budget seen label v = (last, .ok s)) :
    h.Fresh v s :=
  ⟨budget, seen, label, last, built, fun _ _ => not_hasComposite_leaf leaf⟩

/-- Where members are walked through that are trees apart from each other and from what had been
    entered before, each of them is fresh when its turn comes. -/
theorem Walked.fresh (orderly : h.Orderly a b) {budget : Nat} {seen last : List Address}
    {children : List (Key × Snapshot)} (walked : h.Walked budget last seen ps children)
    (within : ∀ p ∈ ps, h.Within a b p.held) (keys : ∀ k w, .entry k w ∈ ps → h.isLeaf k)
    {cs : List Address} (forest : h.Forest (ps.map Part.held) cs) (once : cs.Nodup)
    (new : ∀ c ∈ seen, c ∉ cs) : List.Forall₂ (h.Depicts h.Fresh) ps children := by
  induction walked generalizing cs with
  | nil => exact .nil
  | @cons seen seen' p child ps children shown _ ih =>
      obtain ⟨first, rest, tree, others, rfl⟩ := forest.split
      obtain ⟨_, later, apart⟩ := List.nodup_append.mp once
      have has (c : Address) : h.HasComposite p.held c ↔ c ∈ first := by
        rw [tree.mem_iff]
        simp
      have unmet (c : Address) (old : c ∈ seen) : ¬ h.HasComposite p.held c := fun here =>
        new c old (List.mem_append_left _ ((has c).mp here))
      -- What the next members must not have entered yet is in what they hold, by the walk so far.
      have grown (c : Address) (present : c ∈ seen') : c ∈ seen ∨ c ∈ first := by
        rcases shown.entered (entersMet budget) c present with old | ⟨w, inside, met⟩
        · exact .inl old
        · refine .inr ?_
          have held (met : h.Meets p.held c) : c ∈ first :=
            (has c).mp (orderly.meets (within p List.mem_cons_self) met)
          cases p with
          | item i u | field n u => exact held (List.mem_singleton.mp inside ▸ met)
          | entry k u =>
              rcases List.mem_cons.mp inside with rfl | value
              · exact absurd met (not_meets_leaf (keys w u List.mem_cons_self))
              · exact held (List.mem_singleton.mp value ▸ met)
      refine .cons ?_ (ih (fun p later => within p (List.mem_cons_of_mem _ later))
        (fun k w later => keys k w (List.mem_cons_of_mem _ later)) others later ?_)
      · cases shown with
        | item built => exact .item ⟨_, _, _, _, built, unmet⟩
        | field built named => exact .field named ⟨_, _, _, _, built, unmet⟩
        | @entry k u _ _ _ _ _ told built built' =>
            have leaf := keys k u List.mem_cons_self
            refine .entry told (fresh_leaf leaf built) ⟨_, _, _, _, built', fun c present => ?_⟩
            rcases entersMet budget built c present with old | met
            · exact unmet c old
            · exact absurd met (not_meets_leaf leaf)
      · intro c present inside
        rcases grown c present with old | here
        · exact new c old (List.mem_append_right _ inside)
        · exact apart c here c inside rfl

/-- A fresh snapshot of a tree shows all members of its root, and they are fresh. -/
theorem Fresh.whole (orderly : h.Orderly a b) (within : h.Within a b v) (tree : h.Tree v)
    {s : Snapshot} (fresh : h.Fresh v s) {c : Address} (address : (h.shape v).address? = some c) :
    ∃ ps built, h.HasParts v ps ∧ List.Forall₂ (h.Depicts h.Fresh) ps built ∧
      h.labelled built = .ok s.children ∧ s.head.type = h.typeOf v ∧ s.head.isLeaf = false ∧
      s.head.alreadyReferenced = false := by
  obtain ⟨budget, seen, label, last, taken, unmet⟩ := fresh
  have composite : ¬ h.isLeaf v := fun leaf => not_hasComposite_leaf leaf ⟨v, .refl, address⟩
  cases buildWithin_drawing taken with
  | leaf none => cases none.symm.trans address
  | again address' old => exact absurd ⟨v, .refl, address'⟩ (unmet _ old)
  | @whole _ _ _ _ d ps built _ children address' _ members walked labelled =>
      cases address.symm.trans address'
      have spread := members.spread orderly within composite
      obtain ⟨inner, below, once, new⟩ := tree.branches address
      refine ⟨ps, built, members, ?_, labelled, rfl, rfl, rfl⟩
      refine walked.fresh orderly (fun p inside => within.below (.single (spread.holds inside)))
        (fun k w inside => orderly.keys.leaf k (spread.key within inside))
        (spread.held ▸ below) once ?_
      intro d present inside
      rcases List.mem_append.mp present with old | here
      · obtain ⟨u, branch, has⟩ := (below.mem_iff d).mp inside
        exact unmet d old (has.below (.single (holds_iff_branches.mpr branch)))
      · exact new (List.mem_singleton.mp here ▸ inside)

/-! ## Snapshots that can be taken -/

theorem PassesBy.cases_head {u : Value} (passes : h.PassesBy v u) : u = v ∨
    ∃ ps p w, h.HasParts v ps ∧ p ∈ ps ∧ w ∈ p.values ∧ h.PassesBy w u := by
  induction passes with
  | self => exact .inl rfl
  | @member u qs q x _ members present inside ih =>
      rcases ih with rfl | ⟨ps, p, w, own, first, holds, passes⟩
      · exact .inr ⟨qs, q, x, members, present, inside, .self⟩
      · exact .inr ⟨ps, p, w, own, first, holds, .member passes members present inside⟩

theorem Spread.tells (bare : h.hasFieldSource "object" = false) (orderly : h.Orderly a b)
    (within : h.Within a b v) (spread : h.Spread v ps) : h.Tells v := by
  have own := spread.hasParts orderly within
  have named (n w : Value) (inside : .field n w ∈ ps) : ∃ key, h.key n = .ok key := by
    obtain ⟨i, at_i⟩ := List.getElem?_of_mem inside
    obtain ⟨c, es, e, shape, told, here, rfl, _⟩ := spread.field_at at_i
    have member := List.mem_of_getElem? here
    exact ⟨e.1, orderly.settled.keys.current e.1 ⟨v, es, e, within, .fields shape told, member, rfl⟩⟩
  constructor
  · exact fun c address => live bare address
  · exact ⟨ps, own⟩
  · intro qs members p inside
    cases members.unique own
    cases p with
    | item i w => exact ⟨_, rfl⟩
    | field n w => exact named n w inside
    | entry k w =>
        obtain ⟨text, told⟩ := orderly.keys.written k (spread.key within inside)
        exact ⟨_, text, told, rfl⟩
  · intro qs members n w n' w' inside inside' key key' labels labels'
    cases members.unique own
    obtain ⟨r, found, _⟩ :=
      orderly.isFor within within spread spread rfl inside inside' labels labels'
    exact ⟨r, found⟩

theorem Spread.enumerates (bare : h.hasFieldSource "object" = false) (orderly : h.Orderly a b)
    (within : h.Within a b v) (spread : h.Spread v ps)
    (branches : ∀ u ∈ h.branches v, h.Enumerates u) : h.Enumerates v := by
  intro u passes
  rcases passes.cases_head with rfl | ⟨qs, p, w, members, inside, holds, onward⟩
  · exact spread.tells bare orderly within
  · cases members.unique (spread.hasParts orderly within)
    rcases spread.values within inside holds with rfl | key
    · exact branches _ (spread.held ▸ List.mem_map_of_mem inside) u onward
    · exact enumerates_leaf (shape_of_isLeaf (orderly.keys.leaf w key)) u onward

theorem Members.spread {q : Meeting} {members : List (Value × Value)}
    (of : h.Members x y q members) : (∃ ps, h.Spread x ps) ∧ ∃ qs, h.Spread y qs := by
  cases of with
  | sequence shape shape' => exact ⟨⟨_, .sequence shape⟩, _, .sequence shape'⟩
  | mapping shape shape' => exact ⟨⟨_, .mapping shape⟩, _, .mapping shape'⟩
  | structured shape shape' own own' =>
    exact ⟨⟨_, .structured shape own⟩, _, .structured shape' own'⟩

/-- Snapshots can be taken of values that have a trail. -/
theorem Trail.enumerates (bare : h.hasFieldSource "object" = false) (orderly : h.Orderly a b)
    {pairs : List (Value × Value)} {t : List Meeting} (trail : h.Trail pairs t) :
    ∀ p ∈ pairs, h.Within a b p.1 → h.Within a b p.2 → h.Enumerates p.1 ∧ h.Enumerates p.2 := by
  induction trail with
  | done => simp
  | leaf _ leaf leaf' _ _ ih =>
      exact List.forall_mem_cons.mpr
        ⟨fun _ _ =>
          ⟨enumerates_leaf (shape_of_isLeaf leaf), enumerates_leaf (shape_of_isLeaf leaf')⟩, ih⟩
  | @composite x y q members _ _ _ _ of _ _ ihMembers ih =>
      refine List.forall_mem_cons.mpr ⟨fun left right => ?_, ih⟩
      have below (p : Value × Value) (inside : p ∈ members) : h.Enumerates p.1 ∧ h.Enumerates p.2 :=
        ihMembers p inside (left.below (.single (of.holds_left.mpr (List.mem_map_of_mem inside))))
          (right.below (.single (of.holds_right.mpr (List.mem_map_of_mem inside))))
      obtain ⟨⟨ps, spread⟩, qs, spread'⟩ := of.spread
      constructor
      · refine spread.enumerates bare orderly left fun u branch => ?_
        obtain ⟨p, inside, rfl⟩ := List.mem_map.mp (of.branches_left ▸ branch)
        exact (below p inside).1
      · refine spread'.enumerates bare orderly right fun u branch => ?_
        obtain ⟨p, inside, rfl⟩ := List.mem_map.mp (of.branches_right.mem_iff.mp branch)
        exact (below p inside).2

/-! ## Trails and differences -/

variable (h) in
/-- It does not matter on which side a leaf stands when it is compared. -/
def SymmetricLeaves (a b : Value) : Prop := ∀ x y, h.Reaches a x → h.Reaches b y →
  h.isLeaf x → h.isLeaf y → (h.leafEqual x y = .ok true ↔ h.leafEqual y x = .ok true)

theorem agrees_leaves (plain : (h.classes "object").equality = .identity)
    (types : h.typeOf x = h.typeOf y) (forms : h.form x = h.form y) (leaf : h.isLeaf x)
    (leaf' : h.isLeaf y) (equal : h.leafEqual x y = .ok true) {s t : Snapshot}
    (fresh : h.Fresh x s) (fresh' : h.Fresh y t) : Snapshot.Agrees h s t := by
  obtain ⟨_, _, _, _, built, _⟩ := fresh
  obtain ⟨_, _, _, _, built', _⟩ := fresh'
  have drawing := buildWithin_drawing built
  have drawing' := buildWithin_drawing built'
  have shown := drawing.isLeaf.mpr leaf
  have shown' := drawing'.isLeaf.mpr leaf'
  refine Snapshot.agrees_iff.mpr (.leaf ?_ shown shown' ?_)
  · rw [drawing.type, drawing'.type, types]
  · rw [drawing.content shown, drawing'.content shown']
    exact (contentEqual_freeze plain types forms).mpr equal

theorem Orderly.form_eq (orderly : h.Orderly a b) (formed : h.FormedByClass b a)
    (left : h.Reaches a x) (right : h.Reaches b y) (types : h.typeOf x = h.typeOf y) :
    h.form y = h.form x :=
  formed y x (orderly.passes (.inr .refl) right) (orderly.passes (.inl .refl) left) types.symm

/-- Fresh snapshots of two composites of one class give no difference if those of their members in
    pairs give none. -/
theorem Members.agrees (plain : (h.classes "object").equality = .identity)
    (orderly : h.Orderly a b) (formed : h.FormedByClass b a) {q : Meeting}
    {members : List (Value × Value)} (of : h.Members x y q members)
    (types : h.typeOf x = h.typeOf y) (left : h.Reaches a x) (right : h.Reaches b y)
    (tree : h.Tree x) (tree' : h.Tree y) (inside : ∀ p ∈ members, ∀ s s', h.Fresh p.2 s →
      h.Fresh p.1 s' → Snapshot.Agrees h s s')
    {s s' : Snapshot} (fresh : h.Fresh y s) (fresh' : h.Fresh x s') : Snapshot.Agrees h s s' := by
  have kinds : h.kind y = h.kind x := kind_eq types.symm (orderly.form_eq formed left right types)
  have within : h.Within a b x := .inl left
  have within' : h.Within a b y := .inr right
  have passes : h.PassesBy a x := orderly.passes (.inl .refl) left
  have passes' : h.PassesBy b y := orderly.passes (.inr .refl) right
  obtain ⟨ps, built, own, shown, labelled, type, leaf, met⟩ :=
    fresh.whole orderly within' tree' of.address_right
  obtain ⟨qs, built', own', shown', labelled', type', leaf', met'⟩ :=
    fresh'.whole orderly within tree of.address_left
  have spread := own.spread orderly within' fun leaf =>
    not_hasComposite_leaf leaf ⟨y, .refl, of.address_right⟩
  have spread' := own'.spread orderly within fun leaf =>
    not_hasComposite_leaf leaf ⟨x, .refl, of.address_left⟩
  have same : h.SameParts (fun v w => ∀ s s', h.Fresh v s → h.Fresh w s' →
      Snapshot.Agrees h s s') ps qs := by
    refine of.sameParts orderly within within' spread spread' inside ?_
    intro k v k' v' member member' alike s s' fresh fresh'
    have key := spread.key within' member
    have key' := spread'.key within member'
    have types := ((orderly.keys.told k k' key key').mp alike).1
    have forms := formed k k' (.member passes' own member (by simp [Part.values]))
      (.member passes own' member' (by simp [Part.values])) types
    exact agrees_leaves plain types forms (orderly.keys.leaf k key) (orderly.keys.leaf k' key')
      (orderly.keys.leafEqual key key' forms alike) fresh fresh'
  have apart {u v : Value} {ps qs : List Part} (one : h.Passed b a u) (other : h.Passed b a v)
      (kinds : h.kind u = h.kind v) (members : h.HasParts u ps) (members' : h.HasParts v qs) :=
    partsApart orderly.keysWrittenApart orderly.namesApart one other kinds members members'
  have children : Snapshot.ChildrenAgree h s.children s'.children := by
    rw [labelled_depicts shown (apart (.inl passes') (.inl passes') rfl own own) labelled,
      labelled_depicts shown' (apart (.inr passes) (.inr passes) rfl own' own') labelled']
    refine same.childrenAgree shown shown' (fun v w s t related => related s t)
      (apart (.inl passes') (.inl passes') rfl own own)
      (apart (.inl passes') (.inr passes) kinds own own')
      (apart (.inr passes) (.inl passes') kinds.symm own' own) ?_
    intro p member r other key key' labels labels'
    rcases List.mem_append.mp other with other | other
    · exact orderly.isFor within' within' spread spread rfl member other labels labels'
    · exact orderly.isFor within' within spread spread' kinds member other labels labels'
  exact Snapshot.agrees_iff.mpr
    (.composite (by rw [type, type', types]) leaf leaf' met met' children)

/-- Fresh snapshots of trees that have a trail give no difference. -/
theorem Trail.agrees (plain : (h.classes "object").equality = .identity) (orderly : h.Orderly a b)
    (formed : h.FormedByClass b a) (symm : h.SymmetricLeaves a b) {pairs : List (Value × Value)}
    {t : List Meeting} (trail : h.Trail pairs t) : ∀ p ∈ pairs, h.Reaches a p.1 → h.Reaches b p.2 →
      h.Tree p.1 → h.Tree p.2 → ∀ s s', h.Fresh p.2 s → h.Fresh p.1 s' → Snapshot.Agrees h s s' := by
  induction trail with
  | done => simp
  | @leaf x y _ _ types leaf leaf' equal _ ih =>
      refine List.forall_mem_cons.mpr ⟨fun left right _ _ s s' fresh fresh' => ?_, ih⟩
      exact agrees_leaves plain types.symm (orderly.form_eq formed left right types) leaf' leaf
        ((symm x y left right leaf leaf').mp equal) fresh fresh'
  | @composite x y q members _ _ _ types of _ _ ihMembers ih =>
      refine List.forall_mem_cons.mpr ⟨fun left right tree tree' s s' fresh fresh' => ?_, ih⟩
      refine of.agrees plain orderly formed types left right tree tree' (fun p inside => ?_) fresh
        fresh'
      have holds := of.holds_left.mpr (List.mem_map_of_mem inside)
      have holds' := of.holds_right.mpr (List.mem_map_of_mem inside)
      obtain ⟨_, forest, once, _⟩ := tree.branches of.address_left
      obtain ⟨_, forest', once', _⟩ := tree'.branches of.address_right
      exact ihMembers p inside (left.tail holds) (right.tail holds')
        (forest.tree once (holds_iff_branches.mp holds))
        (forest'.tree once' (holds_iff_branches.mp holds'))

/-- What faces each other in snapshots without a difference is the same up to members in pairs that
    do. -/
theorem Facing.paired (plain : (h.classes "object").equality = .identity)
    (separate : h.Separate a b) (orderly : h.Orderly a b) (formed : h.FormedByClass b a)
    (symm : h.SymmetricLeaves a b) (left : h.Reaches a x) (right : h.Reaches b y)
    (facing : h.Facing b a y x) :
    h.PairedStep (fun x y => h.Reaches a x ∧ h.Reaches b y ∧ h.Facing b a y x) x y := by
  cases facing.step plain formed orderly.keysWrittenApart orderly.namesApart with
  | same address one =>
      subst one
      exact absurd ⟨y, right, address⟩ (separate.apart ⟨y, left, address⟩)
  | leaf types leaf leaf' equal =>
      exact .leaf types.symm leaf' leaf ((symm x y left right leaf' leaf).mpr equal)
  | composite types kinds composite members members' same =>
      have composite' : ¬ h.isLeaf x := by rwa [isLeaf, ← kinds]
      have spread := members.spread orderly (.inr right) composite
      have spread' := members'.spread orderly (.inl left) composite'
      obtain ⟨q, pairs, of, faced⟩ :=
        same.members orderly (.inl left) (.inr right) spread spread' kinds
      refine .composite types.symm of fun p inside => ⟨?_, ?_, faced p inside⟩
      · exact left.tail (of.holds_left.mpr (List.mem_map_of_mem inside))
      · exact right.tail (of.holds_right.mpr (List.mem_map_of_mem inside))

/-- Snapshots of separate values can be taken and give no difference exactly if the values unfold to
    one finite tree. -/
theorem diff_iff_trail (bare : h.hasFieldSource "object" = false)
    (plain : (h.classes "object").equality = .identity) (separate : h.Separate a b)
    (orderly : h.Orderly a b) (formed : h.FormedByClass b a) (symm : h.SymmetricLeaves a b) :
    (∃ s t, h.snapshot b = .ok s ∧ h.snapshot a = .ok t ∧ (s.diff h (some t)).2 = .ok none) ↔
      ∃ t, h.Trail [(a, b)] t := by
  have taken {v : Value} {s : Snapshot} (snapshot : h.snapshot v = .ok s) :
      ∃ last, h.buildWithin (h.objects.size + 1) [] .null v = (last, .ok s) :=
    ⟨_, Prod.ext rfl snapshot⟩
  constructor
  · rintro ⟨s, t, left, right, none⟩
    obtain ⟨_, built⟩ := taken left
    obtain ⟨_, built'⟩ := taken right
    refine separate.trail (R := fun x y => h.Reaches a x ∧ h.Reaches b y ∧ h.Facing b a y x) ?_
      ⟨.refl, .refl, .self, .self, s, t, ⟨_, _, _, _, built⟩, ⟨_, _, _, _, built'⟩, none⟩
    rintro x y ⟨left, right, facing⟩
    exact facing.paired plain separate orderly formed symm left right
  · rintro ⟨_, trail⟩
    obtain ⟨tree, tree'⟩ := separate.trees
    obtain ⟨enumerates, enumerates'⟩ := trail.enumerates bare orderly _ List.mem_cons_self
      (.inl .refl) (.inr .refl)
    obtain ⟨t, actual⟩ := snapshot_ok enumerates
    obtain ⟨s, expected⟩ := snapshot_ok enumerates'
    obtain ⟨_, built⟩ := taken expected
    obtain ⟨_, built'⟩ := taken actual
    exact ⟨s, t, expected, actual, trail.agrees plain orderly formed symm _ List.mem_cons_self .refl
      .refl tree tree' s t ⟨_, _, _, _, built, by simp⟩ ⟨_, _, _, _, built', by simp⟩⟩

/-- Separate values are alike exactly if their snapshots can be taken and give no difference. -/
theorem like_iff_diff (bare : h.hasFieldSource "object" = false)
    (plain : (h.classes "object").equality = .identity) (separate : h.Separate a b)
    (orderly : h.Orderly a b) (formed : h.FormedByClass b a) (symm : h.SymmetricLeaves a b)
    (present : ∀ x c kind es, h.Reaches a x → h.shape x = .mapping c kind es →
      ∀ e ∈ es, h.typeOf e.2 ≠ h.typeOf .null) :
    h.like a b = .ok true ↔ ∃ s t, h.snapshot b = .ok s ∧ h.snapshot a = .ok t ∧
      (s.diff h (some t)).2 = .ok none := by
  have kinds : h.KindByClass a b := fun x y left right types =>
    (kind_eq types.symm (orderly.form_eq formed left right types)).symm
  rw [like_iff_trail bare orderly.settled kinds separate present,
    diff_iff_trail bare plain separate orderly formed symm]

/-! ## Nested lists, changed sets and lost names -/

theorem settled_texts : h.Settled fun k => ∃ s, k = .text s := by
  have asked (s t : String) : sameOr h.equal (.text s) (.text t) = .ok (s == t) := by
    unfold sameOr
    split
    · rename_i one
      simp_all
    · exact equal_texts s t
  have same (s t : String) : h.sameKey (.text s) (.text t) = (s == t) := by
    unfold sameKey
    rw [asked]
  constructor
  · rintro _ ⟨s, rfl⟩
    exact key_text s
  · rintro _ _ ⟨s, rfl⟩ ⟨t, rfl⟩
    refine ⟨⟨_, asked s t⟩, fun one => ?_⟩
    have texts : s = t := by simpa [Key.text, Key.plain, same] using one
    rw [texts]
  · rintro _ _ ⟨s, rfl⟩ ⟨t, rfl⟩ one
    simp_all [Key.text, Key.plain]
  · rintro _ _ _ ⟨s, rfl⟩ ⟨t, rfl⟩ ⟨u, rfl⟩ one other
    simp_all [Key.text, Key.plain]

/-- Two dictionaries, each with a list of its own. -/
def nests : Heap where
  classes := Standard.classes []
  objects :=
    let list (items : List Value) : Object := { cls := "list", body := .sequence .list items }
    let dict (v : Value) : Object := { cls := "dict", body := .mapping .dict [(.text "k", v)] }
    #[list [.int 1], dict (.ref 0), list [.int 1], dict (.ref 2)]

def nestsValues : List Value := [.ref 0, .ref 1, .ref 2, .ref 3, .int 1]

theorem nests_among {u : Value} (within : nests.Within (.ref 1) (.ref 3) u) : u ∈ nestsValues := by
  have closed : ∀ w ∈ nestsValues, ∀ x ∈ nests.branches w, x ∈ nestsValues := by decide
  rcases within with left | right
  · exact left.among (by simp [nestsValues]) closed
  · exact right.among (by simp [nestsValues]) closed

theorem nests_files {u : Value} {es : List (Key × Value)}
    (within : nests.Within (.ref 1) (.ref 3) u) (files : nests.Files u es) :
    ∃ v, es = [(.text "k", v)] := by
  have member := nests_among within
  simp only [nestsValues, List.mem_cons, List.not_mem_nil, or_false] at member
  rcases member with rfl | rfl | rfl | rfl | rfl
  · cases files with
    | mapping shape | fields shape => cases shape
  · exact ⟨_, files.unique (.mapping rfl)⟩
  · cases files with
    | mapping shape | fields shape => cases shape
  · exact ⟨_, files.unique (.mapping rfl)⟩
  · cases files with
    | mapping shape | fields shape => cases shape

theorem nests_orderly : nests.Orderly (.ref 1) (.ref 3) := by
  have key (k : Value) (own : nests.MappingKey (.ref 1) (.ref 3) k) : k = .text "k" := by
    obtain ⟨v, c, kind, es, e, within, shape, member, rfl⟩ := own
    obtain ⟨_, rfl⟩ := nests_files within (.mapping shape)
    cases List.mem_singleton.mp member
    rfl
  refine ⟨⟨settled_texts.mono ?_, ?_⟩, ⟨?_, ?_, ?_, ?_⟩, ?_⟩
  · rintro _ ⟨v, es, e, within, files, member, rfl⟩
    obtain ⟨_, rfl⟩ := nests_files within files
    cases List.mem_singleton.mp member
    exact ⟨_, rfl⟩
  · intro v es within files i j k k' at_i at_j _
    obtain ⟨_, rfl⟩ := nests_files within files
    have below := (List.getElem?_eq_some_iff.mp at_i).1
    have below' := (List.getElem?_eq_some_iff.mp at_j).1
    simp only [List.map_cons, List.map_nil, List.length_singleton] at below below'
    omega
  · intro k own
    rw [key k own]
    rfl
  · intro k own
    rw [key k own]
    exact ⟨_, rfl⟩
  · intro k k' own own'
    rw [key k own, key k' own', equal_texts]
    simp
  · intro k k' own own' _
    rw [key k own, key k' own']
  · intro v c shared within shape
    have structured : ∀ u ∈ nestsValues, nests.kind u ≠ .structured := by decide
    exact absurd (by simp [kind, shape, Shape.kind]) (structured v (nests_among within))

theorem nests_formed : nests.FormedByClass (.ref 3) (.ref 1) := by
  let values : List Value := .text "k" :: nestsValues
  have closed : ∀ u ∈ values, ∃ ps, nests.HasParts u ps ∧
      ∀ p ∈ ps, ∀ v ∈ p.values, v ∈ values := by
    simp only [values, nestsValues, List.forall_mem_cons, List.not_mem_nil, false_implies,
      implies_true, and_true]
    exact ⟨⟨[], rfl, by simp⟩, ⟨[.item 0 (.int 1)], rfl, by simp [Part.values]⟩,
      ⟨[.entry (.text "k") (.ref 0)], rfl, by simp [Part.values]⟩,
      ⟨[.item 0 (.int 1)], rfl, by simp [Part.values]⟩,
      ⟨[.entry (.text "k") (.ref 2)], rfl, by simp [Part.values]⟩, ⟨[], rfl, by simp⟩⟩
  have forms : ∀ x ∈ values, ∀ y ∈ values, nests.typeOf x = nests.typeOf y →
      nests.form x = nests.form y := by decide
  exact fun x y left right => forms x (left.among (by simp [values, nestsValues]) closed)
    y (right.among (by simp [values, nestsValues]) closed)

/-- Dictionaries with lists that are equal are alike, and their snapshots give no difference. -/
theorem like_iff_diff_nests : nests.hasFieldSource "object" = false ∧
    (nests.classes "object").equality = .identity ∧ nests.Separate (.ref 1) (.ref 3) ∧
    nests.Orderly (.ref 1) (.ref 3) ∧ nests.FormedByClass (.ref 3) (.ref 1) ∧
    nests.SymmetricLeaves (.ref 1) (.ref 3) ∧ nests.like (.ref 1) (.ref 3) = .ok true ∧
    ∃ s t, nests.snapshot (.ref 3) = .ok s ∧ nests.snapshot (.ref 1) = .ok t ∧
      (s.diff nests (some t)).2 = .ok none := by
  have tree (c d : Address) (dict : nests.branches (.ref c) = [.ref d])
      (list : nests.branches (.ref d) = [.int 1])
      (address : (nests.shape (.ref c)).address? = some c)
      (address' : (nests.shape (.ref d)).address? = some d) : nests.Forest [.ref c] [c, d] := by
    have items : nests.Forest [.int 1] [] := .leaf rfl .nil
    have below : nests.Forest [.ref d] [d] := .single address' (list ▸ items)
    exact .single address (dict ▸ below)
  have separate : nests.Separate (.ref 1) (.ref 3) :=
    ⟨_, (tree 1 0 rfl rfl rfl rfl).append (tree 3 2 rfl rfl rfl rfl), by decide⟩
  have symm : nests.SymmetricLeaves (.ref 1) (.ref 3) := by
    have leaves : ∀ x ∈ nestsValues, nests.isLeaf x → x = .int 1 := by decide
    intro x y left right leaf leaf'
    rw [leaves x (nests_among (.inl left)) leaf, leaves y (nests_among (.inr right)) leaf']
  have present (x : Value) (c : Address) (kind : MappingKind) (es : List (Key × Value))
      (left : nests.Reaches (.ref 1) x) (shape : nests.shape x = .mapping c kind es) :
      ∀ e ∈ es, nests.typeOf e.2 ≠ nests.typeOf .null := by
    have types : ∀ u ∈ nestsValues, nests.typeOf u ≠ nests.typeOf .null := by decide
    intro e member
    exact types _ (nests_among (.inl (left.tail (.entry (.mapping shape) member))))
  have same := like_iff_diff rfl rfl separate nests_orderly nests_formed symm present
  have alike : nests.like (.ref 1) (.ref 3) = .ok true := rfl
  exact ⟨rfl, rfl, separate, nests_orderly, nests_formed, symm, alike, same.mp alike⟩

theorem Reaches.eq_of_leaf {u : Value} (leaf : h.isLeaf v) (reached : h.Reaches v u) : u = v := by
  rcases reached.cases_head with rfl | ⟨w, holds, _⟩
  · rfl
  · exact absurd holds (not_holds_leaf leaf)

theorem orderly_leaves (leaf : h.isLeaf a) (leaf' : h.isLeaf b) : h.Orderly a b := by
  have leaves (v : Value) (within : h.Within a b v) : h.isLeaf v := by
    rcases within with left | right
    · rwa [left.eq_of_leaf leaf]
    · rwa [right.eq_of_leaf leaf']
  have none (v : Value) (es : List (Key × Value)) (within : h.Within a b v) : ¬ h.Files v es :=
    fun files => by
      have leaf := leaves v within
      cases files with
      | mapping shape | fields shape => simp [isLeaf, kind, shape, Shape.kind] at leaf
  have keyless (k : Key) : ¬ h.KeyWithin a b k := by
    rintro ⟨v, es, _, within, files, _⟩
    exact none v es within files
  have keyless' (k : Value) : ¬ h.MappingKey a b k := fun own => by
    obtain ⟨key, own, _⟩ := own.keyWithin
    exact keyless key own
  refine ⟨⟨⟨?_, ?_, ?_, ?_⟩, ?_⟩, ⟨?_, ?_, ?_, ?_⟩, ?_⟩
  · exact fun k own => absurd own (keyless k)
  · exact fun k _ own => absurd own (keyless k)
  · exact fun k _ own => absurd own (keyless k)
  · exact fun k _ _ own => absurd own (keyless k)
  · exact fun v es within files => absurd files (none v es within)
  · exact fun k own => absurd own (keyless' k)
  · exact fun k own => absurd own (keyless' k)
  · exact fun k _ own => absurd own (keyless' k)
  · exact fun k _ own => absurd own (keyless' k)
  · intro v c shared within shape
    have leaf := leaves v within
    simp [isLeaf, kind, shape, Shape.kind] at leaf

/-- Two sets of points.  The second point of the first set has been made the same as the first since
    it was entered, under the digest that both of them have. -/
def changedSets : Heap where
  classes := Standard.classes Sample.classes
  objects :=
    let point (x y : Int) : Object :=
      { cls := "FrozenPoint", attrs := [("x", .int x), ("y", .int y)] }
    let key (a : Address) (x y : Int) : Key := ⟨.ref a, .ofTuple [.ofInt x, .ofInt y]⟩
    let set (items : List Key) : Object := { cls := "set", body := .members false items }
    #[point (-1) 0, point (-1) 0, point (-1) 0, point 5 5, set [key 0 (-1) 0, key 1 (-2) 0],
      set [key 2 (-1) 0, key 3 5 5]]

/-- It is not enough that values are separate and in order: each point of the first set is in the
    second one, but not the other way round, and the two comparisons ask in different ways. -/
theorem like_iff_diff_misses_changed_set : ¬ ∀ (h : Heap) (a b : Value),
    h.hasFieldSource "object" = false → (h.classes "object").equality = .identity →
    h.Separate a b → h.Orderly a b → h.FormedByClass b a →
    (∀ x c kind es, h.Within a b x → h.shape x = .mapping c kind es →
      ∀ e ∈ es, h.typeOf e.2 ≠ h.typeOf .null) →
    (h.like a b = .ok true ↔ ∃ s t, h.snapshot b = .ok s ∧ h.snapshot a = .ok t ∧
      (s.diff h (some t)).2 = .ok none) := by
  intro claim
  have leaf : changedSets.isLeaf (.ref 5) := rfl
  have leaf' : changedSets.isLeaf (.ref 4) := rfl
  have formed : changedSets.FormedByClass (.ref 4) (.ref 5) := by
    intro x y left right _
    rw [left.eq_of_leaf leaf', right.eq_of_leaf leaf]
    rfl
  have present (x : Value) (c : Address) (kind : MappingKind) (es : List (Key × Value))
      (within : changedSets.Within (.ref 5) (.ref 4) x)
      (shape : changedSets.shape x = .mapping c kind es) :
      ∀ e ∈ es, changedSets.typeOf e.2 ≠ changedSets.typeOf .null := by
    rcases within with left | right
    · cases left.eq_of_leaf leaf
      cases shape
    · cases right.eq_of_leaf leaf'
      cases shape
  have separate : changedSets.Separate (.ref 5) (.ref 4) :=
    ⟨[], .leaf leaf (.leaf leaf' .nil), .nil⟩
  have same := claim changedSets (.ref 5) (.ref 4) rfl rfl separate (orderly_leaves leaf leaf')
    formed present
  have alike := same.mpr ⟨_, _, rfl, rfl, rfl⟩
  have differ : changedSets.like (.ref 5) (.ref 4) = .ok false := rfl
  cases alike.symm.trans differ

/-- Nor is it enough that mappings have plain keys and leaves are compared alike on either side: of
    two fields with one name only one is shown. -/
theorem like_iff_diff_misses_lost_name : ¬ ∀ (h : Heap) (a b : Value),
    h.hasFieldSource "object" = false → (h.classes "object").equality = .identity →
    h.Separate a b → h.PlainKeys a b →
    (∀ v c shared, h.Within a b v → h.shape v = .structured c → h.sharedFields c = .ok shared →
      shared = []) → h.FormedByClass b a → h.SymmetricLeaves a b →
    (∀ x c kind es, h.Within a b x → h.shape x = .mapping c kind es →
      ∀ e ∈ es, h.typeOf e.2 ≠ h.typeOf .null) →
    (h.like a b = .ok true ↔ ∃ s t, h.snapshot b = .ok s ∧ h.snapshot a = .ok t ∧
      (s.diff h (some t)).2 = .ok none) := by
  intro claim
  have among (u : Value) (within : lostNames.Within (.ref 7) (.ref 6) u) : u ∈ lostNamesValues := by
    have closed : ∀ w ∈ lostNamesValues, ∀ x ∈ lostNames.branches w, x ∈ lostNamesValues := by
      decide +kernel
    rcases within with left | right
    · exact left.among (by simp [lostNamesValues]) closed
    · exact right.among (by simp [lostNamesValues]) closed
  have unmapped (u : Value) (within : lostNames.Within (.ref 7) (.ref 6) u) :
      lostNames.kind u ≠ .mapping := by
    have kinds : ∀ u ∈ lostNamesValues, lostNames.kind u ≠ .mapping := by decide +kernel
    exact kinds u (among u within)
  have keyless (k : Value) : ¬ lostNames.MappingKey (.ref 7) (.ref 6) k := by
    rintro ⟨v, c, kind, es, e, within, shape, _⟩
    exact unmapped v within (by simp [Heap.kind, shape, Shape.kind])
  have keys : lostNames.PlainKeys (.ref 7) (.ref 6) :=
    ⟨fun k own => absurd own (keyless k), fun k own => absurd own (keyless k),
      fun k _ own => absurd own (keyless k), fun k _ own => absurd own (keyless k)⟩
  have separate : lostNames.Separate (.ref 7) (.ref 6) := by
    have leaves (n m : Int) : lostNames.Forest [.int n, .int m] [] :=
      .leaf rfl (.leaf rfl .nil)
    have left : lostNames.Forest [.ref 7] [7] := .single rfl (leaves 5 2)
    have right : lostNames.Forest [.ref 6] [6] := .single rfl (leaves 1 2)
    exact ⟨_, left.append right, by decide⟩
  have formed : lostNames.FormedByClass (.ref 6) (.ref 7) := by
    have forms : ∀ x ∈ lostNamesValues, ∀ y ∈ lostNamesValues,
        lostNames.typeOf x = lostNames.typeOf y → lostNames.form x = lostNames.form y := by
      decide +kernel
    exact fun x y left right => forms x (lostNames_among (.inl left)) y (lostNames_among (.inr right))
  have symm : lostNames.SymmetricLeaves (.ref 7) (.ref 6) := by
    have leaves : ∀ x ∈ lostNamesValues, ∀ y ∈ lostNamesValues, lostNames.isLeaf x →
        lostNames.isLeaf y → (lostNames.leafEqual x y = .ok true ↔
          lostNames.leafEqual y x = .ok true) := by
      decide +kernel
    exact fun x y left right => leaves x (among x (.inl left)) y (among y (.inr right))
  have unshared (v : Value) (c : Address) (shared : List (Key × Value))
      (within : lostNames.Within (.ref 7) (.ref 6) v) (shape : lostNames.shape v = .structured c)
      (told : lostNames.sharedFields c = .ok shared) : shared = [] := by
    have described : ∀ u ∈ lostNamesValues, (lostNames.shape u).address?.all fun c =>
        lostNames.sharedFields c == .ok [] := by decide +kernel
    have none := described v (among v within)
    simp only [shape, Shape.address?, Option.all_some, beq_iff_eq] at none
    exact Except.ok.inj (told.symm.trans none)
  have same := claim lostNames (.ref 7) (.ref 6) rfl rfl separate keys unshared formed symm
    fun x c kind es within shape =>
      absurd (by simp [Heap.kind, shape, Shape.kind]) (unmapped x within)
  have alike := same.mpr ⟨_, _, rfl, rfl, rfl⟩
  have differ : lostNames.like (.ref 7) (.ref 6) = .ok false := rfl
  cases alike.symm.trans differ

end Assay.Heap
