import Assay.Proofs.Likeness.Tour
import Assay.Proofs.Snapshot.Paired
import Assay.Proofs.Snapshot.Wholes

/-! # Tours through snapshots

Two snapshots that agree lead a tour through their values: what has one label on both sides is a
pair of it.  As a snapshot shows each composite as a whole only once, the tour looks into each
composite at most once on either side.

Labels have to tell members apart for this, and as much as a comparison of the values does.  Keys of
mappings are shown by what is written of them, and what the objects of a class share is shown with
each of them.
-/

namespace Assay

/-- A walk that does not fail has met all that it may. -/
theorem Yields.whole {α β : Type} {w : Walk α} {xs : List α} {f : α → β} {ys : List β}
    (yields : Yields w xs) (all : w.map (·.map f) = ys.map .ok) : ys = xs.map f := by
  induction yields generalizing ys with
  | done => exact List.map_eq_nil_iff.mp all.symm
  | failed =>
      cases ys with
      | nil => cases all
      | cons y rest => simp [Except.map] at all
  | next _ ih =>
      cases ys with
      | nil => cases all
      | cons y rest =>
          simp only [List.map_cons, List.cons.injEq, Except.map, Except.ok.injEq] at all
          rw [List.map_cons, all.1, ih all.2]

theorem Snapshot.wholes_eq (s : Snapshot) : s.wholes =
    (if s.head.alreadyReferenced then [] else s.head.identity.toList) ++ wholesAll s.children := by
  cases s
  rw [wholes, head, children]

namespace Heap

variable (h : Heap)

/-- The members of one value are told from those of another by what they are shown under. -/
structure LabelsApart (u v : Value) : Prop where
  /-- Keys that are written alike are the same. -/
  written : ∀ c kind es d kind' es', h.shape u = .mapping c kind es →
    h.shape v = .mapping d kind' es' → ∀ e ∈ es, ∀ e' ∈ es', ∀ text,
    h.repr e.1.value = .ok text → h.repr e'.1.value = .ok text → h.sameKey e.1.value e'.1.value
  /-- No name is that of two fields. -/
  names : ∀ ps qs, h.kind u = .structured → h.kind v = .structured → h.HasParts u ps →
    h.HasParts v qs → h.PartsApart ps qs
  /-- No field of the one is shared by the class of the other. -/
  unshared : ∀ c d es shared, h.shape u = .structured c → h.shape v = .structured d →
    h.fields c = .ok es → h.sharedFields d = .ok shared → ∀ e ∈ es, ∀ e' ∈ shared,
    ¬ h.SameName e.1.value e'.1.value ∧ ¬ h.SameName e'.1.value e.1.value

/-- Two values can be told apart by what is shown of them. -/
structure Discernible (a b : Value) : Prop where
  kept : h.KeysKept a b
  formed : ∀ x y, h.Opposite a b x y → h.typeOf x = h.typeOf y → h.form x = h.form y
  labels : ∀ x y, h.Opposite a b x y → h.typeOf x = h.typeOf y → x ≠ y →
    ∀ u ∈ [x, y], ∀ v ∈ [x, y], h.LabelsApart u v
  /-- Leaves are not equal in one order and unequal in the other. -/
  turned : ∀ x y, h.Opposite a b x y → h.typeOf x = h.typeOf y → h.isLeaf x → h.isLeaf y →
    h.leafEqual y x = .ok true → h.leafEqual x y ≠ .ok false
  /-- What is one object on both sides has nothing within that is not equal to itself. -/
  self : ∀ x c, h.Opposite a b x x → (h.shape x).address? = some c → h.SelfEqual x

variable {h} {a b x y u v : Value} {ps qs : List Part}

/-! ## Members that are shown -/

theorem HasParts.mapping_eq (members : h.HasParts v ps) {c : Address} {kind : MappingKind}
    {es : List (Key × Value)} (shape : h.shape v = .mapping c kind es)
    (apart : h.KeysApart (es.map (·.1))) : ps = es.map fun e => .entry e.1.value e.2 := by
  have listed := (yields_walkEntries apart kind).whole ((hasParts_mapping shape).mp members)
  rwa [List.map_map] at listed

/-- What is shown of a composite are its members as they lie, after what it shares with others of
    its class. -/
theorem HasParts.split (members : h.HasParts v ps) (composite : ¬ h.isLeaf v)
    (apart : ∀ es, h.Files v es → h.KeysApart (es.map (·.1))) :
    ∃ shared own, ps = shared ++ own ∧ h.Spread v own ∧ ∀ p ∈ shared, ∃ c es e,
      h.shape v = .structured c ∧ h.sharedFields c = .ok es ∧ e ∈ es ∧
      p = .field e.1.value e.2 := by
  cases shape : h.shape v with
  | leaf => exact absurd (by simp [isLeaf, kind, shape, Shape.kind]) composite
  | sequence c xs =>
      exact ⟨[], ps, rfl, (hasParts_sequence shape).mp members ▸ .sequence shape, by simp⟩
  | mapping c kind es =>
      have listed := members.mapping_eq shape (apart es (.mapping shape))
      exact ⟨[], ps, rfl, listed ▸ .mapping shape, by simp⟩
  | structured c =>
      obtain ⟨shared, own, told, told', rfl⟩ := (hasParts_structured shape).mp members
      refine ⟨_, _, List.map_append, .structured shape told', fun p inside => ?_⟩
      obtain ⟨e, member, rfl⟩ := List.mem_map.mp inside
      exact ⟨c, shared, e, rfl, told, member, rfl⟩

/-- Members are told apart by their labels where keys that are written alike are the same. -/
theorem LabelsApart.partsApart (labels : h.LabelsApart u v) (own : h.LabelsApart v v)
    (apart : ∀ es, h.Files v es → h.KeysApart (es.map (·.1))) (kinds : h.kind u = h.kind v)
    (members : h.HasParts u ps) (members' : h.HasParts v qs) : h.PartsApart ps qs := by
  refine partsApart_of_kind kinds members members' ?_ fun structured structured' =>
    labels.names ps qs structured structured' members members'
  intro mapping i j k w k' w' text at_i at_j told told'
  cases shape : h.shape v with
  | leaf | sequence | structured => simp [kind, shape, Shape.kind] at mapping
  | mapping c kind es =>
      have keys := apart es (.mapping shape)
      cases members'.mapping_eq shape keys
      rw [List.getElem?_map, Option.map_eq_some_iff] at at_i at_j
      obtain ⟨e, here, one⟩ := at_i
      obtain ⟨e', there, other⟩ := at_j
      cases one
      cases other
      have same := own.written c kind es c kind es shape shape e (List.mem_of_getElem? here) e'
        (List.mem_of_getElem? there) text told told'
      exact keys i j e.1 e'.1 (by simp [here]) (by simp [there]) same

theorem LabelsApart.crossed {shared : List Part} (labels : h.LabelsApart u v)
    (kinds : h.kind u = h.kind v) (spread : h.Spread u ps) (sharing : ∀ p ∈ shared, ∃ c es e,
      h.shape v = .structured c ∧ h.sharedFields c = .ok es ∧ e ∈ es ∧
      p = .field e.1.value e.2) : ∀ p ∈ ps, ∀ q ∈ shared, ¬ h.Alike p q := by
  intro p inside q inside'
  obtain ⟨d, es', e', shape', told', member', rfl⟩ := sharing q inside'
  cases spread with
  | sequence shape | mapping shape => simp [kind, shape, shape', Shape.kind] at kinds
  | @structured c es shape own =>
      obtain ⟨e, member, rfl⟩ := List.mem_map.mp inside
      obtain ⟨forth, back⟩ := labels.unshared c d es es' shape shape' own told' e member e' member'
      exact fun alike => alike.elim forth back

/-! ## Members in pairs -/

variable (h) in
/-- Two members are shown under one label, whichever of them is looked for, and without any
    difference. -/
structure Corresponds (f g : Part × Key × Snapshot) : Prop where
  found : h.SameLabel f.1 g.1
  back : h.SameLabel g.1 f.1
  agrees : Snapshot.Agrees h g.2.2 f.2.2

section Faces

variable {P Q : Value → Snapshot → Prop} {es es' : List (Key × Snapshot)}
  {shared own shared' own' : List Part}

theorem PartsApart.nodup (apart : h.PartsApart ps ps) (labels : ∀ p ∈ ps, ∃ key, h.Labels key p) :
    ps.Nodup := by
  refine List.nodup_iff_pairwise_ne.mpr (List.pairwise_iff_getElem.mpr ?_)
  intro i j below below' before same
  obtain ⟨key, label⟩ := labels ps[i] (List.getElem_mem below)
  have place : i = j := apart ps[i] (List.getElem_mem below) i j _ ps[i]
    (List.getElem?_eq_getElem below) (same ▸ List.getElem?_eq_getElem below') (.inl (.self label))
    (.inl (.self label))
  omega

theorem mem_own {f : Part × Key × Snapshot} : f ∈ own.zip (es.drop shared.length) ↔
    ∃ i, shared.length ≤ i ∧ (shared ++ own)[i]? = some f.1 ∧ es[i]? = some f.2 := by
  rw [List.mem_iff_getElem?]
  simp only [List.getElem?_zip_eq_some, List.getElem?_drop]
  constructor
  · rintro ⟨i, here, there⟩
    refine ⟨shared.length + i, by omega, ?_, there⟩
    rwa [List.getElem?_append_right (by omega), Nat.add_sub_cancel_left]
  · rintro ⟨i, past, here, there⟩
    obtain ⟨k, rfl⟩ := Nat.exists_eq_add_of_le past
    rw [List.getElem?_append_right (by omega), Nat.add_sub_cancel_left] at here
    exact ⟨k, here, there⟩

theorem length_own (shown : List.Forall₂ (h.Depicts P) (shared ++ own) es) :
    own.length = (es.drop shared.length).length := by
  have size := shown.length_eq
  rw [List.length_append] at size
  rw [List.length_drop]
  omega

theorem nodup_own (shown : List.Forall₂ (h.Depicts P) (shared ++ own) es)
    (apart : h.PartsApart (shared ++ own) (shared ++ own)) :
    (own.zip (es.drop shared.length)).Nodup := by
  have once : (shared ++ own).Nodup := apart.nodup fun p inside => by
    obtain ⟨c, _, depicts⟩ := (forall₂_mem shown).1 p inside
    exact ⟨_, depicts.labels⟩
  refine .of_map (·.1) ?_
  rw [List.map_fst_zip (length_own shown).le]
  exact (List.nodup_append.mp once).2.1

theorem depicts_own (shown : List.Forall₂ (h.Depicts P) (shared ++ own) es)
    {f : Part × Key × Snapshot} (inside : f ∈ own.zip (es.drop shared.length)) :
    f.1 ∈ shared ++ own ∧ h.Depicts P f.1 f.2 := by
  obtain ⟨i, _, here, there⟩ := mem_own.mp inside
  obtain ⟨p, at_i, depicts⟩ := (forall₂_getElem? shown i).2 _ there
  cases here.symm.trans at_i
  exact ⟨List.mem_of_getElem? here, depicts⟩

/-- What lies in two composites whose children agree is in pairs, if none of it has a label of
    something shared. -/
theorem exists_corresponding (shown : List.Forall₂ (h.Depicts P) (shared ++ own) es)
    (shown' : List.Forall₂ (h.Depicts Q) (shared' ++ own') es')
    (apart : h.PartsApart (shared ++ own) (shared ++ own))
    (apart' : h.PartsApart (shared' ++ own') (shared' ++ own'))
    (right : h.PartsApart (shared ++ own) (shared' ++ own'))
    (left : h.PartsApart (shared' ++ own') (shared ++ own))
    (crossed : ∀ p ∈ own, ∀ q ∈ shared', ¬ h.Alike p q)
    (crossed' : ∀ q ∈ own', ∀ p ∈ shared, ¬ h.Alike q p)
    (agree : Snapshot.ChildrenAgree h es es') :
    ∃ m : List ((Part × Key × Snapshot) × (Part × Key × Snapshot)),
      m.map (·.1) = own'.zip (es'.drop shared'.length) ∧
      (m.map (·.2)).Perm (own.zip (es.drop shared.length)) ∧ ∀ q ∈ m, h.Corresponds q.1 q.2 := by
  obtain ⟨faced, met⟩ := agree_places shown shown' apart right agree
  have past {shared own : List Part} {i : Nat} {p : Part} (at_i : (shared ++ own)[i]? = some p)
      (apart : p ∉ shared) : shared.length ≤ i := by
    refine Nat.le_of_not_lt fun before => apart ?_
    rw [List.getElem?_append_left before] at at_i
    exact List.mem_of_getElem? at_i
  have lies {shared own : List Part} {i : Nat} {p : Part} (at_i : (shared ++ own)[i]? = some p)
      (past : shared.length ≤ i) : p ∈ own := by
    rw [List.getElem?_append_right past] at at_i
    exact List.mem_of_getElem? at_i
  refine exists_pairs (nodup_own shown' apart') (nodup_own shown apart) ?_ ?_ ?_ ?_
  · intro f inside
    obtain ⟨j, behind, at_j, there⟩ := mem_own.mp inside
    obtain ⟨i, p, c, at_i, here, found, back, agrees⟩ := met j f.1 f.2 at_j there
    have behind' := past at_i fun other => crossed' f.1 (lies at_j behind) p other (.inl found)
    exact ⟨(p, c), mem_own.mpr ⟨i, behind', at_i, here⟩, found, back, agrees⟩
  · intro g inside
    obtain ⟨i, behind, at_i, here⟩ := mem_own.mp inside
    obtain ⟨j, q, c', at_j, there, found, _⟩ := faced i g.1 g.2 at_i here
    have behind' := past at_j fun other => crossed g.1 (lies at_i behind) q other (.inl found)
    obtain ⟨i', p, c, at_i', here', found', back, agrees⟩ := met j q c' at_j there
    have place : i = i' := left q (List.mem_of_getElem? at_j) i i' g.1 p at_i at_i' (.inr found)
      (.inl found')
    subst place
    cases at_i.symm.trans at_i'
    cases here.symm.trans here'
    exact ⟨(q, c'), mem_own.mpr ⟨j, behind', at_j, there⟩, found', back, agrees⟩
  · intro f inside f' inside' g member one other
    obtain ⟨j, _, at_j, there⟩ := mem_own.mp inside
    obtain ⟨j', _, at_j', there'⟩ := mem_own.mp inside'
    obtain ⟨i, _, at_i, _⟩ := mem_own.mp member
    have place : j = j' := right g.1 (List.mem_of_getElem? at_i) j j' f.1 f'.1 at_j at_j'
      (.inl one.back) (.inl other.back)
    subst place
    exact Prod.ext (Option.some.inj (at_j.symm.trans at_j'))
      (Option.some.inj (there.symm.trans there'))
  · intro f inside g member g' member' one other
    obtain ⟨j, _, at_j, _⟩ := mem_own.mp inside
    obtain ⟨i, _, at_i, here⟩ := mem_own.mp member
    obtain ⟨i', _, at_i', here'⟩ := mem_own.mp member'
    have place : i = i' := left f.1 (List.mem_of_getElem? at_j) i i' g.1 g'.1 at_i at_i'
      (.inl one.found) (.inl other.found)
    subst place
    exact Prod.ext (Option.some.inj (at_i.symm.trans at_i'))
      (Option.some.inj (here.symm.trans here'))

/-- Where members correspond, there is no difference between what is shown of the values that they
    hold. -/
theorem Corresponds.held {f g : Part × Key × Snapshot} (corresponds : h.Corresponds f g)
    (kinds : f.1.kind = g.1.kind) (depicts : h.Depicts P f.1 f.2) (depicts' : h.Depicts Q g.1 g.2) :
    ∃ s t, P f.1.held s ∧ Q g.1.held t ∧ Snapshot.Agrees h t s ∧
      s.wholes.Sublist f.2.2.wholes ∧ t.wholes.Sublist g.2.2.wholes := by
  obtain ⟨p, c⟩ := f
  obtain ⟨q, c'⟩ := g
  have agrees := corresponds.agrees
  have shown (text : String) (s t : Snapshot) : t.wholes.Sublist (entryNode text s t).wholes := by
    simp [entryNode, Snapshot.wholes, Snapshot.wholesAll]
  cases depicts with
  | item picture | field _ picture =>
      cases depicts' with
      | item picture' | field _ picture' =>
          exact ⟨_, _, picture, picture', agrees, .refl _, .refl _⟩
      | entry => cases kinds
  | entry _ _ value =>
      cases depicts' with
      | item | field => cases kinds
      | entry _ _ value' =>
          exact ⟨_, _, value, value', (agrees_entryNode.mp agrees).2, shown _ _ _, shown _ _ _⟩

end Faces

/-- Entries whose members are in pairs are in pairs themselves. -/
theorem exists_entryPairs {part : Key × Value → Part} {es es' : List (Key × Value)}
    {m : List (Part × Part)} (left : m.map (·.1) = es.map part)
    (right : (m.map (·.2)).Perm (es'.map part)) :
    ∃ m' : List ((Key × Value) × (Key × Value)), m'.map (·.1) = es ∧ (m'.map (·.2)).Perm es' ∧
      m = m'.map (Prod.map part part) := by
  have listed : List.Forall₂ (fun p e => p = part e) (es'.map part) es' :=
    List.forall₂_map_left_iff.mpr (List.forall₂_same.mpr fun _ _ => rfl)
  obtain ⟨others, same, order⟩ := List.perm_comp_forall₂ right listed
  have parts : m.map (·.2) = others.map part := by
    rw [← List.forall₂_eq_eq_eq]
    exact List.forall₂_map_right_iff.mpr same
  have size : es.length = others.length := by
    have lengths := congrArg List.length left
    have lengths' := congrArg List.length parts
    simp only [List.length_map] at lengths lengths'
    omega
  refine ⟨es.zip others, List.map_fst_zip size.le, ?_, ?_⟩
  · rwa [List.map_snd_zip size.ge]
  · rw [← List.zip_map, ← left, ← parts]
    exact List.zip_of_prod rfl rfl

theorem length_itemsFrom (start : Nat) (items : List Value) :
    (itemsFrom start items).length = items.length := by
  induction items generalizing start with
  | nil => rfl
  | cons x rest ih => rw [itemsFrom, List.length_cons, ih, List.length_cons]

/-- Items whose members are in pairs are in order. -/
theorem items_zip {m : List (Part × Part)} {xs ys : List Value} (left : m.map (·.1) = itemsFrom 0 xs)
    (right : (m.map (·.2)).Perm (itemsFrom 0 ys)) (same : ∀ q ∈ m, h.SameLabel q.1 q.2) :
    xs.length = ys.length ∧ m.map (fun q => (q.1.held, q.2.held)) = xs.zip ys := by
  have lengths := congrArg List.length left
  have lengths' := right.length_eq
  simp only [List.length_map, length_itemsFrom] at lengths lengths'
  refine ⟨by omega, List.ext_getElem (by simp; omega) fun i below _ => ?_⟩
  have inside : i < m.length := by simpa using below
  have here : m[i].1 = .item i xs[i] := by
    have at_i := congrArg (·[i]?) left
    simpa [getElem?_itemsFrom, inside, lengths ▸ inside] using at_i
  have listed := right.mem_iff.mp (List.mem_map_of_mem (List.getElem_mem inside))
  obtain ⟨j, w, there, item⟩ := mem_items.mp listed
  obtain ⟨_, _, label, label', found⟩ := same m[i] (List.getElem_mem inside)
  rw [here] at label
  rw [item] at label'
  cases label
  cases label'
  obtain rfl := item_eq_of_isFor found
  obtain ⟨_, rfl⟩ := List.getElem?_eq_some_iff.mp there
  simp [here, item, Part.held]

/-- Two composites have their members in pairs where those with one label are. -/
theorem Spread.members {m : List (Part × Part)} (spread : h.Spread x ps) (spread' : h.Spread y qs)
    (kinds : h.kind x = h.kind y) (labels : h.LabelsApart y x) (left : m.map (·.1) = ps)
    (right : (m.map (·.2)).Perm qs) (same : ∀ q ∈ m, h.SameLabel q.1 q.2) :
    ∃ q, h.Members x y q (m.map fun q => (q.1.held, q.2.held)) := by
  cases spread with
  | @sequence c xs shape =>
      cases spread' with
      | mapping shape' | structured shape' => simp [kind, shape, shape', Shape.kind] at kinds
      | @sequence d ys shape' =>
          obtain ⟨size, zipped⟩ := items_zip left right same
          refine ⟨(c, d), ?_⟩
          rw [zipped]
          exact .sequence shape shape' size
  | @mapping c kind es shape =>
      cases spread' with
      | sequence shape' | structured shape' => simp [Heap.kind, shape, shape', Shape.kind] at kinds
      | @mapping d kind' es' shape' =>
          obtain ⟨m', left', right', rfl⟩ := exists_entryPairs left right
          refine ⟨(c, d), ?_⟩
          rw [List.map_map]
          refine .mapping shape shape' ⟨left', right', fun q member => ?_⟩
          obtain ⟨text, told, told'⟩ := sameLabel_entries.mp (same _ (List.mem_map_of_mem member))
          exact labels.written d kind' es' c kind es shape' shape _
            (right'.mem_iff.mp (List.mem_map_of_mem member)) _
            (left' ▸ List.mem_map_of_mem member) text told' told
  | @structured c es shape own =>
      cases spread' with
      | sequence shape' | mapping shape' => simp [kind, shape, shape', Shape.kind] at kinds
      | @structured d es' shape' own' =>
          obtain ⟨m', left', right', rfl⟩ := exists_entryPairs left right
          refine ⟨(c, d), ?_⟩
          rw [List.map_map]
          refine .structured shape shape' own own' ⟨left', right', fun q member => ?_⟩
          obtain ⟨key, key', made, made', found⟩ := same _ (List.mem_map_of_mem member)
          have names := sameKey_of_isFor found
          rwa [key_value made, key_value made'] at names

/-! ## Tours -/

variable (h) in
/-- There is a tour that looks only into what two lists have, as often as they have it. -/
def Toured (pairs : List (Value × Value)) (left right : List Address) : Prop :=
  ∃ t, h.Tour pairs t ∧ (t.map (·.1)).Subperm left ∧ (t.map (·.2)).Subperm right

theorem Toured.mono {pairs : List (Value × Value)} {left right left' right' : List Address}
    (toured : h.Toured pairs left right) (more : left.Subperm left')
    (more' : right.Subperm right') : h.Toured pairs left' right' := by
  obtain ⟨t, tour, fewer, fewer'⟩ := toured
  exact ⟨t, tour, fewer.trans more, fewer'.trans more'⟩

theorem Toured.each {m : List ((Part × Key × Snapshot) × (Part × Key × Snapshot))}
    (each : ∀ q ∈ m, h.Toured [(q.1.1.held, q.2.1.held)] q.1.2.2.wholes q.2.2.2.wholes) :
    h.Toured (m.map fun q => (q.1.1.held, q.2.1.held)) (Snapshot.wholesAll (m.map (·.1.2)))
      (Snapshot.wholesAll (m.map (·.2.2))) := by
  induction m with
  | nil => exact ⟨[], .done, List.nil_subperm, List.nil_subperm⟩
  | cons q rest ih =>
      obtain ⟨t, tour, left, right⟩ := each q List.mem_cons_self
      obtain ⟨t', tour', left', right'⟩ := ih fun q later => each q (List.mem_cons_of_mem _ later)
      refine ⟨t ++ t', tour.append tour', ?_, ?_⟩
      · rw [List.map_append]
        exact left.append left'
      · rw [List.map_append]
        exact right.append right'

/-- Two composites are toured if their members are. -/
theorem Toured.composite {q : Meeting} {members : List (Value × Value)} {s t : Snapshot}
    (types : h.typeOf x = h.typeOf y) (apart : x ≠ y) (of : h.Members x y q members)
    (whole : s.head.alreadyReferenced = false) (whole' : t.head.alreadyReferenced = false)
    (here : s.head.identity = some q.1) (there : t.head.identity = some q.2)
    (inner : h.Toured members (Snapshot.wholesAll s.children) (Snapshot.wholesAll t.children)) :
    h.Toured [(x, y)] s.wholes t.wholes := by
  obtain ⟨t', tour, left, right⟩ := inner
  refine ⟨q :: t' ++ [], .composite types apart of tour .done, ?_, ?_⟩
  · simpa [Snapshot.wholes_eq, whole, here, List.subperm_cons] using left
  · simpa [Snapshot.wholes_eq, whole', there, List.subperm_cons] using right

theorem Opposite.reaches (places : h.Opposite a b x y) : h.Reaches a x ∧ h.Reaches b y := by
  induction places with
  | root => exact ⟨.refl, .refl⟩
  | member _ _ _ of inside ih =>
      exact ⟨ih.1.tail (of.holds_left.mpr (List.mem_map_of_mem inside)),
        ih.2.tail (of.holds_right.mpr (List.mem_map_of_mem inside))⟩

section Composites

variable {P Q : Value → Snapshot → Prop} {es es' children children' : List (Key × Snapshot)}

/-- Two composites whose children agree have their members in pairs, and nothing that is shown of
    the values in a pair differs. -/
theorem Discernible.members (discernible : h.Discernible a b) (places : h.Opposite a b x y)
    (types : h.typeOf x = h.typeOf y) (distinct : x ≠ y) (composite : ¬ h.isLeaf x)
    (members : h.HasParts x ps) (members' : h.HasParts y qs)
    (shown : List.Forall₂ (h.Depicts P) ps es) (shown' : List.Forall₂ (h.Depicts Q) qs es')
    (labelled : h.labelled es = .ok children) (labelled' : h.labelled es' = .ok children')
    (agree : Snapshot.ChildrenAgree h children' children) :
    ∃ q, ∃ m : List ((Part × Key × Snapshot) × (Part × Key × Snapshot)),
      h.Members x y q (m.map fun q => (q.1.1.held, q.2.1.held)) ∧
      (Snapshot.wholesAll (m.map (·.1.2))).Subperm (Snapshot.wholesAll children) ∧
      (Snapshot.wholesAll (m.map (·.2.2))).Subperm (Snapshot.wholesAll children') ∧
      ∀ q ∈ m, ∃ s t, P q.1.1.held s ∧ Q q.2.1.held t ∧ Snapshot.Agrees h t s ∧
        s.wholes.Sublist q.1.2.2.wholes ∧ t.wholes.Sublist q.2.2.2.wholes := by
  obtain ⟨left, right⟩ := places.reaches
  have kinds := kind_eq types (discernible.formed x y places types)
  have labels := discernible.labels x y places types distinct
  have keys (es : List (Key × Value)) (files : h.Files x es) : h.KeysApart (es.map (·.1)) :=
    discernible.kept.keysApart (.inl left) files
  have keys' (es : List (Key × Value)) (files : h.Files y es) : h.KeysApart (es.map (·.1)) :=
    discernible.kept.keysApart (.inr right) files
  have own := labels x (by simp) x (by simp)
  have own' := labels y (by simp) y (by simp)
  have cross := labels x (by simp) y (by simp)
  have cross' := labels y (by simp) x (by simp)
  have apart := own.partsApart own keys rfl members members
  have apart' := own'.partsApart own' keys' rfl members' members'
  cases labelled_depicts shown apart labelled
  cases labelled_depicts shown' apart' labelled'
  have forth := cross.partsApart own' keys' kinds members members'
  have back := cross'.partsApart own keys kinds.symm members' members
  have composite' : ¬ h.isLeaf y := by simpa [isLeaf, kinds] using composite
  obtain ⟨shared, laid, rfl, spread, sharing⟩ := members.split composite keys
  obtain ⟨shared', laid', rfl, spread', sharing'⟩ := members'.split composite' keys'
  obtain ⟨m, first, second, corresponds⟩ := exists_corresponding shown' shown apart' apart back forth
    (cross'.crossed kinds.symm spread' sharing) (cross.crossed kinds spread sharing') agree
  have parts : (m.map fun q => (q.1.1, q.2.1)).map (·.1) = laid := by
    have own := congrArg (List.map (·.1)) first
    rw [List.map_fst_zip (length_own shown).le, List.map_map] at own
    rwa [List.map_map]
  have parts' : ((m.map fun q => (q.1.1, q.2.1)).map (·.2)).Perm laid' := by
    have own := second.map (·.1)
    rw [List.map_fst_zip (length_own shown').le, List.map_map] at own
    rwa [List.map_map]
  obtain ⟨q, of⟩ := spread.members spread' kinds cross' parts parts'
    (List.forall_mem_map.mpr fun q member => (corresponds q member).found)
  rw [List.map_map] at of
  refine ⟨q, m, of, ?_, ?_, fun q member => ?_⟩
  · have own := congrArg (List.map (·.2)) first
    rw [List.map_snd_zip (length_own shown).ge, List.map_map] at own
    have kept : m.map (·.1.2) = es.drop shared.length := own
    rw [kept, Snapshot.wholesAll_eq, Snapshot.wholesAll_eq]
    exact ((List.drop_sublist _ _).flatMap _).subperm
  · have own := second.map (·.2)
    rw [List.map_snd_zip (length_own shown').ge, List.map_map] at own
    have kept : (m.map (·.2.2)).Perm (es'.drop shared'.length) := own
    rw [Snapshot.wholesAll_eq, Snapshot.wholesAll_eq]
    exact (kept.flatMap_right _).subperm.trans ((List.drop_sublist _ _).flatMap _).subperm
  · obtain ⟨inside, depicts⟩ := depicts_own shown (first ▸ List.mem_map_of_mem member)
    obtain ⟨inside', depicts'⟩ := depicts_own shown'
      (second.mem_iff.mp (List.mem_map_of_mem member))
    refine (corresponds q member).held ?_ depicts depicts'
    exact (members.kind_eq _ inside).trans (kinds.trans (members'.kind_eq _ inside').symm)

end Composites

/-- Where the snapshots of two values agree, there is a tour that looks only into what they show as a
    whole. -/
theorem Discernible.toured (plain : (h.classes "object").equality = .identity)
    (discernible : h.Discernible a b) {budget : Nat} {s t : Snapshot}
    (places : h.Opposite a b x y) (pictures : h.PicturesWithin budget x s)
    (pictures' : h.Pictures y t) (agrees : Snapshot.Agrees h t s) :
    h.Toured [(x, y)] s.wholes t.wholes := by
  induction budget generalizing x y s t with
  | zero =>
      obtain ⟨_, _, _, built⟩ := pictures
      cases built
  | succ budget ih =>
      obtain ⟨_, _, _, built⟩ := pictures
      obtain ⟨_, _, _, _, built'⟩ := pictures'
      have drawing := buildWithin_drawing built
      have drawing' := buildWithin_drawing built'
      have one {c : Address} (address : (h.shape x).address? = some c) (same : x = y) :
          h.Toured [(x, y)] s.wholes t.wholes := by
        subst same
        exact ⟨[], .one address (discernible.self x c places address) .done, List.nil_subperm,
          List.nil_subperm⟩
      have types (same : t.head.type = s.head.type) : h.typeOf y = h.typeOf x := by
        rwa [drawing.type, drawing'.type] at same
      cases Snapshot.agrees_iff.mp agrees with
      | same whole same =>
          rw [drawing'.identity] at whole
          rw [drawing.identity, drawing'.identity] at same
          obtain ⟨c, address⟩ := Option.isSome_iff_exists.mp whole
          exact one (same ▸ address)
            ((eq_ref_of_address (same ▸ address)).trans (eq_ref_of_address address).symm)
      | leaf same leaf' leaf equal =>
          have types := types same
          rw [drawing.content leaf, drawing'.content leaf'] at equal
          have turned := (contentEqual_freeze plain types
            (discernible.formed x y places types.symm).symm).mp equal
          have leaf := drawing.isLeaf.mp leaf
          exact ⟨[], .leaf types.symm leaf (discernible.turned x y places types.symm leaf
            (drawing'.isLeaf.mp leaf') turned) .done, List.nil_subperm, List.nil_subperm⟩
      | composite same leaf' leaf met' met children =>
          have types := (types same).symm
          obtain ⟨c, _, ps, es, size, address, _, members, walked, labelled⟩ :=
            drawing.members leaf met
          obtain ⟨_, _, qs, es', _, _, _, members', walked', labelled'⟩ :=
            drawing'.members leaf' met'
          cases size
          by_cases apart : x = y
          · exact one address apart
          · have composite : ¬ h.isLeaf x := by simp [isLeaf_iff, address]
            obtain ⟨q, m, of, left, right, each⟩ := discernible.members places types apart composite
              members members' walked.picturesWithin walked'.pictures labelled labelled' children
            have inner := Toured.each fun q' member => by
              obtain ⟨s', t', shown, shown', agrees', fewer, fewer'⟩ := each q' member
              have below := places.member types apart of (List.mem_map_of_mem member)
              exact (ih below shown shown' agrees').mono fewer.subperm fewer'.subperm
            exact .composite types apart of met met' (drawing.identity.trans of.address_left)
              (drawing'.identity.trans of.address_right) (inner.mono left right)

end Heap

end Assay
