import Assay.Proofs.Heap.Trip
import Assay.Proofs.Likeness.Sharing
import Assay.Proofs.Snapshot.Expansion
import Assay.Proofs.Snapshot.Positions

/-! # Values that are built again

A value is built again from other composites, and at some places with other leaves.  What belongs to
a class is not built again: the new objects share it with the old ones.  A walk through the new
value comes by what has been built and by what is shared, and everything on its way tells its
members as the old value did.
-/

namespace Assay.Heap

/-- A leaf in the place of another one, with the labels that lead there. -/
abbrev Replacement := List Value × Value × Value

/-- Replacements, seen from some labels further up. -/
def replacedUnder (labels : List Value) (cs : List Replacement) : List Replacement :=
  cs.map fun c => (labels ++ c.1, c.2)

variable (h : Heap)

/-- The members that a value has from its class. -/
inductive ClassParts (x : Value) : List Part → Prop where
  | none : (∀ a, h.shape x ≠ .structured a) → ClassParts x []
  | fields {a shared} : h.shape x = .structured a → h.sharedFields a = .ok shared →
      ClassParts x (shared.map fun e => .field e.1.value e.2)

/-- The members that are a value's own. -/
inductive OwnParts (x : Value) : List Part → Prop where
  | members {ps} : (∀ a, h.shape x ≠ .structured a) → h.HasParts x ps → OwnParts x ps
  | fields {a own} : h.shape x = .structured a → h.fields a = .ok own →
      OwnParts x (own.map fun e => .field e.1.value e.2)

/-- A member is built again under the label it had. -/
inductive RebuiltPart (R : Value → Value → List Meeting → List Replacement → Prop) :
    Part → Part → List Meeting → List Replacement → Prop where
  | item {i x y t cs} : R x y t cs →
      RebuiltPart R (.item i x) (.item i y) t (replacedUnder [itemLabel i] cs)
  | field {n x y t cs} : R x y t cs →
      RebuiltPart R (.field n x) (.field n y) t (replacedUnder [n] cs)
  /-- No leaf of a key is replaced. -/
  | entry {k k' text x y t t' cs} : h.repr k = .ok text → h.repr k' = .ok text → R k k' t [] →
      R x y t' cs → RebuiltPart R (.entry k x) (.entry k' y) (t ++ t')
        (replacedUnder [entryLabel text, .text "value"] cs)

/-- Members are built again one after the other. -/
inductive RebuiltParts (R : Value → Value → List Meeting → List Replacement → Prop) :
    List Part → List Part → List Meeting → List Replacement → Prop where
  | nil : RebuiltParts R [] [] [] []
  | cons {p q ps qs t t' cs cs'} : h.RebuiltPart R p q t cs → RebuiltParts R ps qs t' cs' →
      RebuiltParts R (p :: ps) (q :: qs) (t ++ t') (cs ++ cs')

/-- A value is built again: the composites of both, each with the one it has become, and the leaves
    that have been replaced. -/
inductive Rebuilt : Value → Value → List Meeting → List Replacement → Prop where
  | leaf {x} : h.isLeaf x → Rebuilt x x [] []
  | replaced {x y} : h.isLeaf x → h.isLeaf y →
      h.typeOf x ≠ h.typeOf y ∨ h.leafEqual x y = .ok false → Rebuilt x y [] [([], x, y)]
  | composite {x y a b ps qs t cs} : (h.shape x).address? = some a →
      (h.shape y).address? = some b → h.typeOf x = h.typeOf y → h.OwnParts x ps →
      h.OwnParts y qs → h.RebuiltParts Rebuilt ps qs t cs → Rebuilt x y ((a, b) :: t) cs

/-- A walk through a value comes by another one in something that belongs to a class. -/
def PassesByShared (v u : Value) : Prop := ∃ z ps p x, h.PassesBy v z ∧ h.ClassParts z ps ∧
  p ∈ ps ∧ x ∈ p.values ∧ h.PassesBy x u

variable {h} {v w x y u u' : Value} {a b : Address} {p q : Part} {ps qs : List Part}
  {t t' : List Meeting} {cs cs' : List Replacement}
  {R : Value → Value → List Meeting → List Replacement → Prop}

/-! ## Members of a class, and a value's own -/

theorem OwnParts.unique (own : h.OwnParts x ps) (own' : h.OwnParts x qs) : ps = qs := by
  cases own with
  | members other members =>
      cases own' with
      | members _ members' => exact members.unique members'
      | fields shape => exact absurd shape (other _)
  | fields shape told =>
      cases own' with
      | members other => exact absurd shape (other _)
      | fields shape' told' =>
          cases shape.symm.trans shape'
          cases told.symm.trans told'
          rfl

theorem classParts_none (other : ∀ a, h.shape x ≠ .structured a) :
    h.ClassParts x ps ↔ ps = [] := by
  constructor
  · intro ofClass
    cases ofClass with
    | none => rfl
    | fields shape => exact absurd shape (other _)
  · rintro rfl
    exact .none other

theorem classParts_fields (shape : h.shape x = .structured a) : h.ClassParts x ps ↔
    ∃ shared, h.sharedFields a = .ok shared ∧ ps = shared.map fun e => .field e.1.value e.2 := by
  constructor
  · intro ofClass
    cases ofClass with
    | none other => exact absurd shape (other _)
    | fields shape' told =>
        cases shape.symm.trans shape'
        exact ⟨_, told, rfl⟩
  · rintro ⟨shared, told, rfl⟩
    exact .fields shape told

theorem ClassParts.unique (ofClass : h.ClassParts x ps) (ofClass' : h.ClassParts x qs) :
    ps = qs := by
  cases ofClass with
  | none other => exact ((classParts_none other).mp ofClass').symm
  | fields shape told =>
      obtain ⟨_, told', rfl⟩ := (classParts_fields shape).mp ofClass'
      cases told.symm.trans told'
      rfl

/-- What a value has from its class comes before its own members. -/
theorem hasParts_iff : h.HasParts x ps ↔
    ∃ shared own, h.ClassParts x shared ∧ h.OwnParts x own ∧ ps = shared ++ own := by
  constructor
  · intro members
    by_cases structured : ∃ a, h.shape x = .structured a
    · obtain ⟨a, shape⟩ := structured
      obtain ⟨shared, own, told, told', rfl⟩ := (hasParts_structured shape).mp members
      exact ⟨_, _, .fields shape told, .fields shape told', List.map_append⟩
    · have other := not_exists.mp structured
      exact ⟨[], ps, .none other, .members other members, rfl⟩
  · rintro ⟨_, _, ofClass, own, rfl⟩
    cases ofClass with
    | none other =>
        cases own with
        | members _ members => exact members
        | fields shape => exact absurd shape (other _)
    | fields shape told =>
        cases own with
        | members other => exact absurd shape (other _)
        | fields shape' told' =>
            cases shape.symm.trans shape'
            exact (hasParts_structured shape).mpr ⟨_, _, told, told', List.map_append.symm⟩

/-- Objects of one class share the same if their own fields have the same names. -/
theorem sharedFields_congr {es es' : List (Key × Value)}
    (types : (h.object a).cls = (h.object b).cls) (own : h.fields a = .ok es)
    (own' : h.fields b = .ok es') (names : es.map (·.1.value) = es'.map (·.1.value)) :
    h.sharedFields a = h.sharedFields b := by
  have taken (name : String) : es.any (·.1.isText name) = es'.any (·.1.isText name) := by
    have by_name (es : List (Key × Value)) : es.any (·.1.isText name) =
        (es.map (·.1.value)).any fun v => v.text? == some name := by
      rw [List.any_map]
      rfl
    rw [by_name, by_name, names]
  unfold sharedFields
  simp only [types, own, own', taken]

/-! ## Members that are built again -/

/-- Members stand in the order they had. -/
theorem RebuiltParts.forall₂ (rebuilt : h.RebuiltParts R ps qs t cs) :
    List.Forall₂ (fun p q => ∃ t' cs', h.RebuiltPart R p q t' cs' ∧ t' ⊆ t) ps qs := by
  induction rebuilt with
  | nil => exact .nil
  | cons here _ ih =>
      apply List.Forall₂.cons
      · exact ⟨_, _, here, List.subset_append_left _ _⟩
      · exact ih.imp fun _ _ ⟨t', cs', part, among⟩ =>
          ⟨t', cs', part, List.subset_append_of_subset_right _ among⟩

/-- The values of a member are built again, and none besides. -/
theorem RebuiltPart.values (rebuilt : h.RebuiltPart R p q t cs) :
    List.Forall₂ (fun x y => ∃ t' cs', R x y t' cs' ∧ t' ⊆ t) p.values q.values := by
  cases rebuilt with
  | item here | field here => exact .cons ⟨_, _, here, List.Subset.refl _⟩ .nil
  | entry _ _ key value =>
      exact .cons ⟨_, _, key, List.subset_append_left _ _⟩
        (.cons ⟨_, _, value, List.subset_append_right _ _⟩ .nil)

theorem RebuiltParts.values (rebuilt : h.RebuiltParts R ps qs t cs) :
    List.Forall₂ (fun p q => List.Forall₂ (fun x y => ∃ t' cs', R x y t' cs' ∧ t' ⊆ t)
      p.values q.values) ps qs := by
  apply rebuilt.forall₂.imp
  rintro p q ⟨t', cs', part, among⟩
  apply part.values.imp
  rintro x y ⟨t'', cs'', here, inner⟩
  exact ⟨t'', cs'', here, List.Subset.trans inner among⟩

theorem RebuiltPart.labels (rebuilt : h.RebuiltPart R p q t cs) {key : Key}
    (labels : h.Labels key p) : h.Labels key q := by
  cases rebuilt with
  | item | field => exact labels
  | entry told told' =>
      obtain ⟨text, written, rfl⟩ := labels
      cases told.symm.trans written
      exact ⟨_, told', rfl⟩

theorem shape_structured_iff : (∃ a, h.shape x = .structured a) ↔ h.kind x = .structured := by
  unfold Heap.kind
  cases h.shape x <;> simp [Shape.kind]

/-- What an object shares with others of its class it shares with the one it has become. -/
theorem ClassParts.rebuilt {shared : List Part} (types : h.typeOf x = h.typeOf y)
    (forms : h.form x = h.form y) (own : h.OwnParts x ps) (own' : h.OwnParts y qs)
    (rebuilt : h.RebuiltParts R ps qs t cs) : h.ClassParts x shared ↔ h.ClassParts y shared := by
  have kinds : (∃ a, h.shape x = .structured a) ↔ ∃ b, h.shape y = .structured b := by
    rw [shape_structured_iff, shape_structured_iff, kind_eq types forms]
  cases own with
  | members other =>
      have other' := not_exists.mp (kinds.not.mp (not_exists.mpr other))
      rw [classParts_none other, classParts_none other']
  | @fields _ es shape told =>
      cases own' with
      | members other => exact absurd (kinds.mp ⟨_, shape⟩) (not_exists.mpr other)
      | @fields _ es' shape' told' =>
          have here := eq_ref_of_address (h := h) (v := x) (by rw [shape, Shape.address?])
          have there := eq_ref_of_address (h := h) (v := y) (by rw [shape', Shape.address?])
          subst here there
          have fields := List.forall₂_map_right_iff.mp
            (List.forall₂_map_left_iff.mp rebuilt.forall₂)
          have names : List.Forall₂ Eq (es.map (·.1.value)) (es'.map (·.1.value)) := by
            apply map_related fields
            rintro ⟨⟨n, _⟩, _⟩ ⟨⟨n', _⟩, _⟩ ⟨_, _, part, _⟩
            cases part
            rfl
          rw [List.forall₂_eq_eq_eq] at names
          rw [classParts_fields shape, classParts_fields shape',
            sharedFields_congr types told told' names]

/-! ## What walks come by -/

theorem PassesByShared.member (shared : h.PassesByShared v u) (members : h.HasParts u ps)
    (inside : p ∈ ps) (holds : x ∈ p.values) : h.PassesByShared v x := by
  obtain ⟨z, qs, q, y, passes, ofClass, inside', holds', below⟩ := shared
  exact ⟨z, qs, q, y, passes, ofClass, inside', holds', below.member members inside holds⟩

/-- A walk goes down in a value's own members, or it is in what belongs to a class. -/
theorem PassesBy.own_or_shared {P S : Value → Prop} (passes : h.PassesBy v u) (root : P v)
    (own : ∀ z ps p x, h.PassesBy v z → P z → h.OwnParts z ps → p ∈ ps → x ∈ p.values → P x)
    (shared : ∀ z ps p x, h.PassesBy v z → P z → h.ClassParts z ps → p ∈ ps → x ∈ p.values → S x)
    (closed : ∀ z ps p x, S z → h.HasParts z ps → p ∈ ps → x ∈ p.values → S x) : P u ∨ S u := by
  induction passes with
  | self => exact .inl root
  | member passes members inside holds ih =>
      rcases ih with here | below
      · obtain ⟨ofClass, ofOwn, told, told', rfl⟩ := hasParts_iff.mp members
        rcases List.mem_append.mp inside with inside | inside
        · exact .inr (shared _ _ _ _ passes here told inside holds)
        · exact .inl (own _ _ _ _ passes here told' inside holds)
      · exact .inr (closed _ _ _ _ below members inside holds)

theorem OwnParts.not_leaf (own : h.OwnParts x ps) (inside : p ∈ ps) : ¬ h.isLeaf x := by
  cases own with
  | members _ members => exact members.not_leaf inside
  | fields shape => simp [Heap.isLeaf, Heap.kind, shape, Shape.kind]

theorem ClassParts.not_leaf (ofClass : h.ClassParts x ps) (inside : p ∈ ps) : ¬ h.isLeaf x := by
  cases ofClass with
  | none => cases inside
  | fields shape => simp [Heap.isLeaf, Heap.kind, shape, Shape.kind]

/-- What the old value holds is built again. -/
theorem Rebuilt.member (rebuilt : h.Rebuilt x y t cs) (own : h.OwnParts x ps) (inside : p ∈ ps)
    (holds : u ∈ p.values) : ∃ u' t' cs', h.Rebuilt u u' t' cs' ∧ t' ⊆ t := by
  have compound := own.not_leaf inside
  cases rebuilt with
  | leaf leaf | replaced leaf => exact absurd leaf compound
  | composite _ _ _ own₁ _ parts =>
      cases own.unique own₁
      obtain ⟨q, _, values⟩ := (forall₂_mem parts.values).1 p inside
      obtain ⟨u', _, t', cs', here, among⟩ := (forall₂_mem values).1 u holds
      exact ⟨u', t', cs', here, List.subset_cons_of_subset _ among⟩

/-- What the new value holds has been built from what the old one holds. -/
theorem Rebuilt.member_new (rebuilt : h.Rebuilt x y t cs) (own : h.OwnParts y qs) (inside : q ∈ qs)
    (holds : u' ∈ q.values) : ∃ ps, h.OwnParts x ps ∧ ∃ p ∈ ps, ∃ u ∈ p.values,
      ∃ t' cs', h.Rebuilt u u' t' cs' ∧ t' ⊆ t := by
  have compound := own.not_leaf inside
  cases rebuilt with
  | leaf leaf | replaced _ leaf => exact absurd leaf compound
  | composite _ _ _ own₁ own₂ parts =>
      cases own.unique own₂
      obtain ⟨p, inside', values⟩ := (forall₂_mem parts.values).2 q inside
      obtain ⟨u, holds', t', cs', here, among⟩ := (forall₂_mem values).2 u' holds
      exact ⟨_, own₁, p, inside', u, holds', t', cs', here, List.subset_cons_of_subset _ among⟩

theorem Rebuilt.passes (rebuilt : h.Rebuilt x y t cs) (passes : h.PassesBy x u) :
    (∃ u' t' cs', h.Rebuilt u u' t' cs' ∧ t' ⊆ t) ∨ h.PassesByShared x u := by
  apply passes.own_or_shared
  · exact ⟨y, t, cs, rebuilt, List.Subset.refl t⟩
  · rintro z ps p v _ ⟨z', t₁, cs₁, here, among⟩ own inside holds
    obtain ⟨v', t₂, cs₂, further, among'⟩ := here.member own inside holds
    exact ⟨v', t₂, cs₂, further, List.Subset.trans among' among⟩
  · intro z ps p v passes _ ofClass inside holds
    exact ⟨z, ps, p, v, passes, ofClass, inside, holds, .self⟩
  · intro z ps p v shared members inside holds
    exact shared.member members inside holds

theorem Rebuilt.classParts {shared : List Part} (formed : h.FormedByClass v w)
    (rebuilt : h.Rebuilt x y t cs) (left : h.PassesBy v x) (right : h.PassesBy w y)
    (compound : ¬ h.isLeaf y) : h.ClassParts x shared ↔ h.ClassParts y shared := by
  cases rebuilt with
  | leaf leaf | replaced _ leaf => exact absurd leaf compound
  | composite _ _ types own own' parts =>
      exact ClassParts.rebuilt types (formed x y left right types) own own' parts

/-- A walk through the new value comes by what has been built, and by what belongs to a class. -/
theorem Rebuilt.passes_new (formed : h.FormedByClass v w) (enumerates : h.Enumerates v)
    (rebuilt : h.Rebuilt v w t cs) (passes : h.PassesBy w u') :
    (∃ u t' cs', h.PassesBy v u ∧ h.Rebuilt u u' t' cs' ∧ t' ⊆ t) ∨ h.PassesByShared v u' := by
  apply passes.own_or_shared
  · exact ⟨v, t, cs, .self, rebuilt, List.Subset.refl t⟩
  · rintro z' qs q x' _ ⟨z, t₁, cs₁, reached, here, among⟩ own inside holds
    obtain ⟨ps, own', p, inside', x, holds', t₂, cs₂, further, among'⟩ :=
      here.member_new own inside holds
    obtain ⟨_, members⟩ := (enumerates z reached).members
    obtain ⟨shared, own₁, _, told, rfl⟩ := hasParts_iff.mp members
    cases own'.unique told
    have inside := List.mem_append_right shared inside'
    exact ⟨x, t₂, cs₂, reached.member members inside holds', further,
      List.Subset.trans among' among⟩
  · rintro z' ps p x passes ⟨z, t₁, cs₁, reached, here, _⟩ ofClass inside holds
    have told := (here.classParts formed reached passes (ofClass.not_leaf inside)).mpr ofClass
    exact ⟨z, ps, p, x, reached, told, inside, holds, .self⟩
  · intro z ps p x shared members inside holds
    exact shared.member members inside holds

/-! ## What is met -/

theorem Rebuilt.address (rebuilt : h.Rebuilt x y t cs) {c : Address}
    (address : (h.shape x).address? = some c ∨ (h.shape y).address? = some c) :
    c ∈ composites t := by
  cases rebuilt with
  | leaf leaf => simp [isLeaf_iff.mp leaf] at address
  | replaced leaf leaf' => simp [isLeaf_iff.mp leaf, isLeaf_iff.mp leaf'] at address
  | composite left right =>
      rw [left, right] at address
      simp only [composites, List.flatMap_cons, List.mem_append, List.mem_cons, Option.some.injEq]
        at address ⊢
      tauto

theorem composites_mono (among : t' ⊆ t) : composites t' ⊆ composites t := by
  intro c inside
  obtain ⟨q, member, here⟩ := List.mem_flatMap.mp inside
  exact List.mem_flatMap.mpr ⟨q, among member, here⟩

variable (h) in
/-- A walk through a value comes by a composite in something that belongs to a class. -/
def MeetsShared (v : Value) (c : Address) : Prop :=
  ∃ u, h.PassesByShared v u ∧ (h.shape u).address? = some c

theorem Rebuilt.meets {c : Address} (rebuilt : h.Rebuilt x y t cs) (meets : h.Meets x c) :
    c ∈ composites t ∨ h.MeetsShared x c := by
  obtain ⟨u, passes, address⟩ := meets
  rcases rebuilt.passes passes with ⟨u', t', cs', here, among⟩ | shared
  · exact .inl (composites_mono among (here.address (.inl address)))
  · exact .inr ⟨u, shared, address⟩

theorem Rebuilt.meets_new {c : Address} (formed : h.FormedByClass v w)
    (enumerates : h.Enumerates v) (rebuilt : h.Rebuilt v w t cs) (meets : h.Meets w c) :
    c ∈ composites t ∨ h.MeetsShared v c := by
  obtain ⟨u', passes, address⟩ := meets
  rcases rebuilt.passes_new formed enumerates passes with ⟨u, t', cs', _, here, among⟩ | shared
  · exact .inl (composites_mono among (here.address (.inr address)))
  · exact .inr ⟨u', shared, address⟩

/-! ## What the new value tells -/

theorem RebuiltPart.name {n : Value} (rebuilt : h.RebuiltPart R p (.field n y) t cs) :
    ∃ x, p = .field n x := by
  cases rebuilt with
  | field => exact ⟨_, rfl⟩

/-- What belongs to a class is walked through as well. -/
theorem PassesByShared.passes (enumerates : h.Enumerates v) (shared : h.PassesByShared v u) :
    h.PassesBy v u := by
  obtain ⟨z, ps, p, x, passes, ofClass, inside, holds, below⟩ := shared
  obtain ⟨_, members⟩ := (enumerates z passes).members
  obtain ⟨shared, own, ofClass', _, rfl⟩ := hasParts_iff.mp members
  have inside := List.mem_append_left own (ofClass.unique ofClass' ▸ inside)
  exact (passes.member members inside holds).trans below

/-- A value that is built from one that tells its members tells them too. -/
theorem Rebuilt.tells (contained : h.Contained) (tells : h.Tells x)
    (ofClass : ∀ shared, h.ClassParts x shared → h.ClassParts y shared)
    (rebuilt : h.Rebuilt x y t cs) : h.Tells y := by
  cases rebuilt with
  | leaf => exact tells
  | replaced _ leaf => exact enumerates_leaf (shape_of_isLeaf leaf) y .self
  | @composite _ _ _ _ ps qs _ _ _ _ _ own own' parts =>
      obtain ⟨_, members⟩ := tells.members
      obtain ⟨shared, ps', told, told', rfl⟩ := hasParts_iff.mp members
      cases own.unique told'
      have members' : h.HasParts y (shared ++ qs) :=
        hasParts_iff.mpr ⟨_, _, ofClass _ told, own', rfl⟩
      have partner (q : Part) (inside : q ∈ shared ++ qs) : ∃ p ∈ shared ++ ps,
          (∀ key, h.Labels key p → h.Labels key q) ∧
            ∀ n v, q = .field n v → ∃ u, p = .field n u := by
        rcases List.mem_append.mp inside with inside | inside
        · exact ⟨q, List.mem_append_left _ inside, fun _ => id, fun n v same => ⟨v, same⟩⟩
        · obtain ⟨p, inside', _, _, part, _⟩ := (forall₂_mem parts.forall₂).2 q inside
          refine ⟨p, List.mem_append_right _ inside', fun _ => part.labels, ?_⟩
          rintro n v rfl
          exact part.name
      refine ⟨contained y, ⟨_, members'⟩, ?_, ?_⟩
      · intro qs' same q inside
        cases members'.unique same
        obtain ⟨p, inside', labels, _⟩ := partner q inside
        obtain ⟨key, label⟩ := tells.labels _ members p inside'
        exact ⟨key, labels key label⟩
      · intro qs' same n x n' x' inside inside' key key' known known'
        cases members'.unique same
        obtain ⟨_, left, _, named⟩ := partner _ inside
        obtain ⟨_, right, _, named'⟩ := partner _ inside'
        obtain ⟨y, rfl⟩ := named n x rfl
        obtain ⟨y', rfl⟩ := named' n' x' rfl
        exact tells.names _ members n y n' y' left right key key' known known'

theorem Rebuilt.enumerates (contained : h.Contained) (formed : h.FormedByClass v w)
    (enumerates : h.Enumerates v) (rebuilt : h.Rebuilt v w t cs) : h.Enumerates w := by
  intro u' passes
  rcases rebuilt.passes_new formed enumerates passes with ⟨u, t', cs', reached, here, _⟩ | shared
  · by_cases leaf : h.isLeaf u'
    · exact enumerates_leaf (shape_of_isLeaf leaf) u' .self
    · exact here.tells contained (enumerates u reached) fun shared =>
        (here.classParts formed reached passes leaf).mp
  · exact enumerates u' (shared.passes enumerates)

end Assay.Heap
