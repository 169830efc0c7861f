import Assay.Proofs.Likeness.Sharing

/-! # Trees that stand apart

Where no composite is come by twice, on either side or between the sides, what was entered before
never counts.  Then a comparison finds two values alike exactly if they unfold to one finite tree.
-/

namespace Assay.Heap

variable (h : Heap)

/-- The values that a value branches into.  What cannot tell its fields does not branch. -/
def branches (v : Value) : List Value :=
  match h.shape v with
  | .leaf => []
  | .sequence _ items => items
  | .mapping _ _ entries => entries.map (·.2)
  | .structured a =>
    match h.fields a with
    | .error _ => []
    | .ok entries => entries.map (·.2)

/-- Values that are finite trees, with all the composites that are come by, each as often as there
    are ways to it. -/
inductive Forest : List Value → List Address → Prop where
  | nil : Forest [] []
  | leaf {v vs cs} : h.isLeaf v → Forest vs cs → Forest (v :: vs) cs
  | composite {v a vs inner cs} : (h.shape v).address? = some a → Forest (h.branches v) inner →
      Forest vs cs → Forest (v :: vs) (a :: inner ++ cs)

/-- Two values are trees, and there is only one way to each of their composites. -/
def Separate (a b : Value) : Prop := ∃ cs, h.Forest [a, b] cs ∧ cs.Nodup

/-- Two values are the same up to members, which are related in pairs. -/
inductive PairedStep (R : Value → Value → Prop) (x y : Value) : Prop where
  | leaf : h.typeOf x = h.typeOf y → h.isLeaf x → h.isLeaf y → h.leafEqual x y = .ok true →
      PairedStep R x y
  | composite {q members} : h.typeOf x = h.typeOf y → h.Members x y q members →
      (∀ p ∈ members, R p.1 p.2) → PairedStep R x y

variable {h} {x y : Value}

theorem holds_iff_branches {v u : Value} : h.Holds v u ↔ u ∈ h.branches v := by
  unfold branches
  cases shape : h.shape v with
  | leaf =>
      have leaf : h.isLeaf v := by simp [isLeaf, kind, shape, Shape.kind]
      simp [not_holds_leaf leaf]
  | sequence a items => exact holds_sequence shape
  | mapping a kind entries => exact holds_files (.mapping shape)
  | structured a =>
      simp only
      cases own : h.fields a with
      | ok entries => exact holds_files (.fields shape own)
      | error f =>
          refine iff_of_false (fun holds => ?_) List.not_mem_nil
          cases holds with
          | item shape' => cases shape.symm.trans shape'
          | entry files =>
              cases files with
              | mapping shape' => cases shape.symm.trans shape'
              | fields shape' own' =>
                  cases shape.symm.trans shape'
                  cases own.symm.trans own'

/-- What is found on a way down is among values that have all their branches among them. -/
theorem Reaches.among {v u : Value} {values : List Value} (start : v ∈ values)
    (closed : ∀ w ∈ values, ∀ x ∈ h.branches w, x ∈ values) (reached : h.Reaches v u) :
    u ∈ values := by
  induction reached with
  | refl => exact start
  | tail _ holds ih => exact closed _ ih _ (holds_iff_branches.mp holds)

/-! ## Forests -/

namespace Forest

variable {vs ws : List Value} {cs ds : List Address}

theorem append (forest : h.Forest vs cs) (forest' : h.Forest ws ds) :
    h.Forest (vs ++ ws) (cs ++ ds) := by
  induction forest with
  | nil => exact forest'
  | leaf leaf _ ih => exact .leaf leaf ih
  | composite address below _ _ ih =>
      rw [List.append_assoc]
      exact .composite address below ih

theorem single {v : Value} {a : Address} {inner : List Address}
    (address : (h.shape v).address? = some a) (below : h.Forest (h.branches v) inner) :
    h.Forest [v] (a :: inner) := by
  have whole : h.Forest [v] (a :: inner ++ []) := .composite address below .nil
  rwa [List.append_nil] at whole

theorem split {v : Value} (forest : h.Forest (v :: vs) cs) :
    ∃ first rest, h.Forest [v] first ∧ h.Forest vs rest ∧ cs = first ++ rest := by
  cases forest with
  | leaf leaf later => exact ⟨[], cs, .leaf leaf .nil, later, rfl⟩
  | @composite _ a _ inner rest address below later =>
      exact ⟨a :: inner, rest, .single address below, later, rfl⟩

/-- A composite has the composites of its branches. -/
theorem root {v : Value} {a : Address} (forest : h.Forest [v] cs)
    (address : (h.shape v).address? = some a) :
    ∃ inner, h.Forest (h.branches v) inner ∧ cs = a :: inner := by
  cases forest with
  | leaf leaf => exact absurd ⟨v, .refl, address⟩ (not_hasComposite_leaf leaf)
  | composite address' below later =>
      cases address.symm.trans address'
      cases later
      exact ⟨_, below, List.append_nil _⟩

/-- The order of the values is the order of the composites. -/
theorem perm (order : vs.Perm ws) (forest : h.Forest vs cs) :
    ∃ ds, h.Forest ws ds ∧ cs.Perm ds := by
  induction order generalizing cs with
  | nil => exact ⟨cs, forest, .refl _⟩
  | cons v _ ih =>
      obtain ⟨first, rest, tree, later, rfl⟩ := forest.split
      obtain ⟨rest', later', order⟩ := ih later
      exact ⟨first ++ rest', tree.append later', order.append_left first⟩
  | swap v w vs =>
      obtain ⟨first, _, tree, later, rfl⟩ := forest.split
      obtain ⟨second, rest, tree', last, rfl⟩ := later.split
      refine ⟨second ++ (first ++ rest), tree'.append (tree.append last), ?_⟩
      rw [← List.append_assoc, ← List.append_assoc]
      exact List.perm_append_comm.append_right rest
  | trans _ _ ih ih' =>
      obtain ⟨_, forest', order⟩ := ih forest
      obtain ⟨ds, forest'', order'⟩ := ih' forest'
      exact ⟨ds, forest'', order.trans order'⟩

theorem mem_iff (forest : h.Forest vs cs) (c : Address) :
    c ∈ cs ↔ ∃ v ∈ vs, h.HasComposite v c := by
  induction forest with
  | nil => simp
  | leaf leaf _ ih =>
      rw [ih]
      simp [not_hasComposite_leaf leaf]
  | composite address _ _ ihBelow ih =>
      have here := hasComposite_iff (c := c) address
      simp only [holds_iff_branches] at here
      simp only [List.cons_append, List.mem_cons, List.mem_append, ihBelow, ih,
        exists_eq_or_imp, here, or_assoc]

theorem grounded (forest : h.Forest vs cs) : ∀ v ∈ vs, Acc (fun u v => h.Holds v u) v := by
  induction forest with
  | nil => simp
  | leaf leaf _ ih =>
      exact List.forall_mem_cons.mpr ⟨⟨_, fun _ holds => absurd holds (not_holds_leaf leaf)⟩, ih⟩
  | composite _ _ _ ihBelow ih =>
      exact List.forall_mem_cons.mpr
        ⟨⟨_, fun u holds => ihBelow u (holds_iff_branches.mp holds)⟩, ih⟩

theorem of_each (each : ∀ v ∈ vs, ∃ cs, h.Forest [v] cs) : ∃ cs, h.Forest vs cs := by
  induction vs with
  | nil => exact ⟨[], .nil⟩
  | cons v vs ih =>
      obtain ⟨first, tree⟩ := each v List.mem_cons_self
      obtain ⟨rest, others⟩ := ih fun w later => each w (List.mem_cons_of_mem _ later)
      exact ⟨first ++ rest, tree.append others⟩

/-- A value is a tree exactly if every way down from it comes to its end. -/
theorem exists_iff_grounded {v : Value} :
    (∃ cs, h.Forest [v] cs) ↔ Acc (fun u v => h.Holds v u) v := by
  refine ⟨fun ⟨_, forest⟩ => forest.grounded v List.mem_cons_self, fun grounded => ?_⟩
  induction grounded with
  | intro v _ ih =>
      cases address : (h.shape v).address? with
      | none =>
          exact ⟨[], .leaf (isLeaf_iff.mpr address) .nil⟩
      | some a =>
          obtain ⟨inner, below⟩ := of_each fun u branch => ih u (holds_iff_branches.mpr branch)
          exact ⟨a :: inner, .single address below⟩

end Forest

/-! ## Trails through forests -/

theorem Members.branches_left {q : Meeting} {members : List (Value × Value)}
    (of : h.Members x y q members) : h.branches x = members.map (·.1) := by
  cases of with
  | sequence shape _ size => simp only [branches, shape, List.map_fst_zip (Nat.le_of_eq size)]
  | mapping shape _ matching => simp only [branches, shape, matching.lefts]
  | structured shape _ own _ matching => simp only [branches, shape, own, matching.lefts]

/-- The branches on the right are the right members, in some order. -/
theorem Members.branches_right {q : Meeting} {members : List (Value × Value)}
    (of : h.Members x y q members) : (h.branches y).Perm (members.map (·.2)) := by
  cases of with
  | sequence _ shape size =>
      simp only [branches, shape, List.map_snd_zip (Nat.le_of_eq size.symm)]
      exact .refl _
  | mapping _ shape matching =>
      simp only [branches, shape]
      exact matching.rights.symm
  | structured _ shape _ own matching =>
      simp only [branches, shape, own]
      exact matching.rights.symm

/-- A trail passes the composites of either side as often as they are come by. -/
theorem Trail.perm_composites {pairs : List (Value × Value)} {t : List Meeting}
    (trail : h.Trail pairs t) {cs ds : List Address} (left : h.Forest (pairs.map (·.1)) cs)
    (right : h.Forest (pairs.map (·.2)) ds) : (composites t).Perm (cs ++ ds) := by
  induction trail generalizing cs ds with
  | done =>
      cases left
      cases right
      exact .refl _
  | leaf _ leaf leaf' _ _ ih =>
      cases left with
      | composite address => exact absurd ⟨_, .refl, address⟩ (not_hasComposite_leaf leaf)
      | leaf _ left =>
          cases right with
          | composite address => exact absurd ⟨_, .refl, address⟩ (not_hasComposite_leaf leaf')
          | leaf _ right => exact ih left right
  | @composite x y q members inner pairs t _ of _ _ ihMembers ih =>
      obtain ⟨own, rest, tree, others, rfl⟩ := left.split
      obtain ⟨own', rest', tree', others', rfl⟩ := right.split
      obtain ⟨below, forest, rfl⟩ := tree.root of.address_left
      obtain ⟨below', forest', rfl⟩ := tree'.root of.address_right
      obtain ⟨ordered, forest'', order⟩ := Forest.perm of.branches_right forest'
      have inside := ihMembers (of.branches_left ▸ forest) forest''
      have later := ih others others'
      have split : composites (q :: inner ++ t) =
          q.1 :: q.2 :: composites inner ++ composites t := by
        simp [composites]
      -- The right members may come in another order, so that only counts can be compared.
      rw [split]
      refine List.perm_iff_count.mpr fun c => ?_
      have one := inside.count_eq c
      have two := later.count_eq c
      have three := order.count_eq c
      simp only [List.cons_append, List.count_cons, List.count_append] at one two three ⊢
      omega

theorem steady_of_nodup {t : List Meeting} (once : (composites t).Nodup) : Steady t := by
  refine (List.nodup_flatMap.mp once).2.imp fun {p q} apart met => ?_
  simp only [Function.onFun, List.disjoint_left] at apart
  rcases met with first | second
  · exact absurd List.mem_cons_self (apart first)
  · exact absurd (by simp) (apart second)

/-- Trees that are the same up to members in pairs, step by step, have a trail. -/
theorem Forest.trail {R : Value → Value → Prop} (steps : ∀ x y, R x y → h.PairedStep R x y)
    {vs ws : List Value} {cs : List Address} (forest : h.Forest vs cs)
    (related : List.Forall₂ R vs ws) : ∃ t, h.Trail (vs.zip ws) t := by
  induction forest generalizing ws with
  | nil =>
      cases related
      exact ⟨[], .done⟩
  | leaf leaf _ ih =>
      cases related with
      | cons here later =>
          obtain ⟨t, trail⟩ := ih later
          cases steps _ _ here with
          | leaf types leaf leaf' equal => exact ⟨t, .leaf types leaf leaf' equal trail⟩
          | composite _ of =>
              exact absurd ⟨_, .refl, of.address_left⟩ (not_hasComposite_leaf leaf)
  | @composite v _ _ _ _ address _ _ ihBelow ih =>
      cases related with
      | cons here later =>
          obtain ⟨t, trail⟩ := ih later
          cases steps _ _ here with
          | leaf _ leaf =>
              exact absurd ⟨_, .refl, address⟩ (not_hasComposite_leaf leaf)
          | @composite q members types of below =>
              have pairs : List.Forall₂ R (members.map (·.1)) (members.map (·.2)) := by
                rw [List.forall₂_map_left_iff, List.forall₂_map_right_iff]
                exact List.forall₂_same.mpr below
              obtain ⟨inner, inside⟩ := ihBelow (of.branches_left ▸ pairs)
              have zipped : (h.branches v).zip (members.map (·.2)) = members := by
                rw [of.branches_left]
                exact (List.zip_of_prod rfl rfl).symm
              exact ⟨_, .composite types of (zipped ▸ inside) trail⟩

/-! ## Entries in pairs -/

theorem KeysApart.nodup {keys : List Key} (apart : h.KeysApart keys) : keys.Nodup := by
  refine List.pairwise_iff_getElem.mpr fun i j below below' before same => ?_
  have place := apart i j _ _ (List.getElem?_eq_getElem below) (List.getElem?_eq_getElem below')
    (same ▸ sameKey_self _)
  omega

theorem SettledEntries.matching {K : Key → Prop} {es es' : List (Key × Value)}
    (keys : h.SettledEntries K es es') {R : Value → Value → Prop}
    (forth : ∀ e ∈ es, ∃ e' ∈ es', h.sameKey e.1.value e'.1.value ∧ R e.2 e'.2)
    (back : ∀ e' ∈ es', ∃ e ∈ es, h.sameKey e.1.value e'.1.value) :
    ∃ m, h.Matching es es' m ∧ ∀ p ∈ matchedValues m, R p.1 p.2 := by
  -- The same keys are those of one entry on either side, so no entry has two partners.
  have symm {e e' : Key × Value} (member : e ∈ es) (member' : e' ∈ es')
      (same : h.sameKey e.1.value e'.1.value) : h.sameKey e'.1.value e.1.value :=
    keys.symm _ _ (keys.left e member) (keys.right e' member') same
  have left (e e₁ e' : Key × Value) (member : e ∈ es) (member₁ : e₁ ∈ es) (member' : e' ∈ es')
      (one : h.sameKey e.1.value e'.1.value) (other : h.sameKey e₁.1.value e'.1.value) : e = e₁ :=
    keys.apart.entry_eq member member₁ (keys.trans _ _ _ (keys.left e member)
      (keys.right e' member') (keys.left e₁ member₁) one (symm member₁ member' other))
  have right (e e' e₁ : Key × Value) (member : e ∈ es) (member' : e' ∈ es') (member₁ : e₁ ∈ es')
      (one : h.sameKey e.1.value e'.1.value) (other : h.sameKey e.1.value e₁.1.value) : e' = e₁ :=
    keys.apart'.entry_eq member' member₁ (keys.trans _ _ _ (keys.right e' member')
      (keys.left e member) (keys.right e₁ member₁) (symm member member' one) other)
  obtain ⟨m, first, second, paired⟩ := exists_pairs
    (P := fun e e' => h.sameKey e.1.value e'.1.value ∧ R e.2 e'.2) (.of_map _ keys.apart.nodup)
    (.of_map _ keys.apart'.nodup) forth
    (fun e' member' => by
      obtain ⟨e, member, same⟩ := back e' member'
      obtain ⟨e₁, member₁, same₁, related⟩ := forth e member
      cases right e e₁ e' member member₁ member' same₁ same
      exact ⟨e, member, same, related⟩)
    (fun e member e₁ member₁ e' member' one other =>
      left e e₁ e' member member₁ member' one.1 other.1)
    (fun e member e' member' e₁ member₁ one other =>
      right e e' e₁ member member' member₁ one.1 other.1)
  refine ⟨m, ⟨first, second, fun q inside => ?_⟩, List.forall_mem_map.mpr fun q inside =>
    (paired q inside).2⟩
  exact symm (first ▸ List.mem_map_of_mem inside)
    (second.mem_iff.mp (List.mem_map_of_mem inside)) (paired q inside).1

/-! ## Values that are alike -/

theorem shape_of_isLeaf (leaf : h.isLeaf x) : h.shape x = .leaf := by
  cases shape : h.shape x <;> simp [isLeaf, kind, shape, Shape.kind] at leaf
  rfl

theorem FoundAlike.leafEqual (alike : h.FoundAlike x y) (leaf : h.isLeaf x) :
    h.leafEqual x y = .ok true := by
  obtain ⟨budget, seen, seen', answer⟩ := alike
  have bare : (h.shape x).address? = none := isLeaf_iff.mp leaf
  cases budget with
  | zero => cases answer
  | succ budget =>
      cases alikeStep answer with
      | leaf _ _ equal => exact equal
      | again _ address | members _ address => cases bare.symm.trans address

variable {a b : Value}

variable (h) in
/-- Values of one class on the two sides are of one kind. -/
def KindByClass (a b : Value) : Prop := ∀ x y, h.Reaches a x → h.Reaches b y →
  h.typeOf x = h.typeOf y → h.kind x = h.kind y

theorem Separate.apart (separate : h.Separate a b) {c : Address} (left : h.HasComposite a c) :
    ¬ h.HasComposite b c := by
  intro right
  obtain ⟨_, forest, once⟩ := separate
  obtain ⟨cs, rest, tree, others, rfl⟩ := forest.split
  have here : c ∈ cs := (tree.mem_iff c).mpr ⟨a, by simp, left⟩
  have there : c ∈ rest := (others.mem_iff c).mpr ⟨b, by simp, right⟩
  exact List.disjoint_of_nodup_append once here there

theorem SettledWithin.keysEquivalent (settled : h.SettledWithin a b) : h.KeysEquivalent a b := by
  have within (k : Value) (has : h.HasKey a k ∨ h.HasKey b k) :
      ∃ key, h.KeyWithin a b key ∧ key.value = k := by
    rcases has with ⟨v, es, e, reached, files, member, rfl⟩ |
    ⟨v, es, e, reached, files, member, rfl⟩
    · exact ⟨e.1, ⟨v, es, e, .inl reached, files, member, rfl⟩, rfl⟩
    · exact ⟨e.1, ⟨v, es, e, .inr reached, files, member, rfl⟩, rfl⟩
  constructor
  · intro k k' has has' same
    obtain ⟨key, own, rfl⟩ := within k has
    obtain ⟨key', own', rfl⟩ := within k' has'
    exact settled.keys.symm _ _ own own' same
  · intro k k' k'' has has' has'' same same'
    obtain ⟨key, own, rfl⟩ := within k has
    obtain ⟨key', own', rfl⟩ := within k' has'
    obtain ⟨key'', own'', rfl⟩ := within k'' has''
    exact settled.keys.trans _ _ _ own own' own'' same same'

/-- The same members stand opposite each other in pairs. -/
theorem SameMembers.members (settled : h.SettledWithin a b) (left : h.Within a b x)
    (right : h.Within a b y) {R : Value → Value → Prop} (same : h.SameMembers R x y) :
    ∃ q members, h.Members x y q members ∧ ∀ p ∈ members, R p.1 p.2 := by
  have entries (es es' : List (Key × Value)) (files : h.Files x es) (files' : h.Files y es')
      (same : h.SameEntries R es es') :
      ∃ m, h.Matching es es' m ∧ ∀ p ∈ matchedValues m, R p.1 p.2 :=
    (settled.entries left right es es' files files').matching same.1 fun e' member =>
      (same.2 e' member).imp fun _ found => ⟨found.1, found.2.1⟩
  cases same with
  | sequence shape shape' same =>
      obtain ⟨size, members⟩ := List.forall₂_iff_zip.mp same
      exact ⟨_, _, .sequence shape shape' size, fun p inside => members inside⟩
  | mapping shape shape' same =>
      obtain ⟨m, matching, members⟩ := entries _ _ (.mapping shape) (.mapping shape') same
      exact ⟨_, _, .mapping shape shape' matching, members⟩
  | structured shape shape' own own' same =>
      obtain ⟨m, matching, members⟩ := entries _ _ (.fields shape own) (.fields shape' own') same
      exact ⟨_, _, .structured shape shape' own own' matching, members⟩

/-- On separate sides, what was found alike is the same up to members in pairs that were. -/
theorem Related.paired (settled : h.SettledWithin a b) (kinds : h.KindByClass a b)
    (separate : h.Separate a b)
    (present : ∀ x c kind es, h.Reaches a x → h.shape x = .mapping c kind es →
      ∀ e ∈ es, h.typeOf e.2 ≠ h.typeOf .null)
    (related : h.Related a b x y) : h.PairedStep (h.Related a b) x y := by
  obtain ⟨left, right, alike⟩ := id related
  have types := alike.typeOf_eq
  have leaves (leaf : h.isLeaf x) : h.PairedStep (h.Related a b) x y := by
    have leaf' : h.isLeaf y := by rwa [isLeaf, ← kinds x y left right types]
    exact .leaf types leaf leaf' (alike.leafEqual leaf)
  rcases alike.cases with rfl | ⟨_, ⟨leaf, _⟩ | ⟨pairs, compared, found⟩⟩
  · cases address : (h.shape x).address? with
    | none => exact leaves (isLeaf_iff.mpr address)
    | some c =>
        -- One object on both sides is ruled out, as the sides have no composite in common.
        exact absurd ⟨x, right, address⟩ (separate.apart ⟨x, left, address⟩)
  · exact leaves leaf
  · have same := related.sameMembers settled.keysEquivalent
      (fun x es reached => settled.apart x es (.inl reached)) present compared found
    obtain ⟨q, members, of, inside⟩ := same.members settled (.inl left) (.inr right)
    exact .composite types of inside

/-- What is the same on separate sides, step by step, has a trail. -/
theorem Separate.trail {R : Value → Value → Prop} (separate : h.Separate a b)
    (steps : ∀ x y, R x y → h.PairedStep R x y) (related : R a b) : ∃ t, h.Trail [(a, b)] t := by
  obtain ⟨_, forest, _⟩ := separate
  obtain ⟨_, _, tree, _⟩ := forest.split
  exact tree.trail steps (.cons related .nil)

theorem Separate.steady (separate : h.Separate a b) {t : List Meeting}
    (trail : h.Trail [(a, b)] t) : Steady t := by
  obtain ⟨_, forest, once⟩ := separate
  obtain ⟨_, _, tree, tree', rfl⟩ := forest.split
  exact steady_of_nodup ((trail.perm_composites tree tree').nodup_iff.mpr once)

/-- Separate values are alike exactly if they unfold to one finite tree, where no mapping on the
    left has null for a value. -/
theorem like_iff_trail (bare : h.hasFieldSource "object" = false) (settled : h.SettledWithin a b)
    (kinds : h.KindByClass a b) (separate : h.Separate a b)
    (present : ∀ x c kind es, h.Reaches a x → h.shape x = .mapping c kind es →
      ∀ e ∈ es, h.typeOf e.2 ≠ h.typeOf .null) :
    h.like a b = .ok true ↔ ∃ t, h.Trail [(a, b)] t := by
  constructor
  · intro alike
    refine separate.trail (R := h.Related a b)
      (fun x y related => related.paired settled kinds separate present)
      ⟨.refl, .refl, h.objects.size + 1, [], ?_⟩
    unfold like likeFrom at alike
    cases answer : h.likeWithin (h.objects.size + 1) [] a b with
    | error f => simp [answer, Except.map] at alike
    | ok found =>
        cases found with
        | none => simp [answer, Except.map] at alike
        | some seen => exact ⟨seen, rfl⟩
  · rintro ⟨t, trail⟩
    rw [like_equal_trees bare settled trail, decide_eq_true (separate.steady trail)]

end Assay.Heap
