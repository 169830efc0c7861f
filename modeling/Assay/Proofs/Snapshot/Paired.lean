import Assay.Proofs.Snapshot.Orderly

/-! # Members in pairs

The members of two composites that are laid open are in pairs, elementwise or by their keys, exactly
if they have the same labels.  Where they do, and what is shown of each pair gives no difference,
there is none between the children either.
-/

namespace Assay.Heap

variable {h : Heap} {a b x y : Value} {ps qs : List Part}

/-! ## Labels -/

/-- Members of objects are shown under their names, all others under texts. -/
theorem Orderly.label_cases (orderly : h.Orderly a b) {v : Value} (within : h.Within a b v)
    (spread : h.Spread v ps) {p : Part} (inside : p ∈ ps) {key : Key} (labels : h.Labels key p) :
    h.kind v = .structured ∧ h.KeyWithin a b key ∨
      h.kind v ≠ .structured ∧ ∃ s, key = .plain (.text s) := by
  cases spread with
  | sequence shape =>
      obtain ⟨i, w, rfl⟩ := mem_itemsFrom inside
      exact .inr ⟨by simp [kind, shape, Shape.kind], _, labels⟩
  | mapping shape =>
      obtain ⟨e, _, rfl⟩ := List.mem_map.mp inside
      obtain ⟨text, _, rfl⟩ := labels
      exact .inr ⟨by simp [kind, shape, Shape.kind], _, rfl⟩
  | structured shape own =>
      obtain ⟨e, member, rfl⟩ := List.mem_map.mp inside
      have named : h.KeyWithin a b e.1 := ⟨v, _, e, within, .fields shape own, member, rfl⟩
      have now : h.key e.1.value = .ok e.1 := orderly.settled.keys.current e.1 named
      have made : h.key e.1.value = .ok key := labels
      cases now.symm.trans made
      exact .inl ⟨by simp [kind, shape, Shape.kind], named⟩

/-- Labels of members of one kind can be compared, and it does not matter which is looked for. -/
theorem Orderly.isFor (orderly : h.Orderly a b) {v w : Value} (left : h.Within a b v)
    (right : h.Within a b w) (spread : h.Spread v ps) (spread' : h.Spread w qs)
    (kinds : h.kind v = h.kind w) {p q : Part} (inside : p ∈ ps) (inside' : q ∈ qs)
    {key key' : Key} (labels : h.Labels key p) (labels' : h.Labels key' q) :
    ∃ r, key.isFor h.equal key' = .ok r ∧ key'.isFor h.equal key = .ok r := by
  rcases orderly.label_cases left spread inside labels with ⟨kind, own⟩ | ⟨kind, s, rfl⟩
  · rcases orderly.label_cases right spread' inside' labels' with ⟨_, own'⟩ | ⟨kind', _⟩
    · have settled := orderly.settled.keys
      have back : h.sameKey key'.value key.value = h.sameKey key.value key'.value :=
        Bool.eq_iff_iff.mpr ⟨settled.symm _ _ own' own, settled.symm _ _ own own'⟩
      exact ⟨_, (settled.comparable _ _ own' own).isFor,
        back ▸ (settled.comparable _ _ own own').isFor⟩
    · exact absurd (kinds ▸ kind) kind'
  · rcases orderly.label_cases right spread' inside' labels' with ⟨kind', _⟩ | ⟨_, t, rfl⟩
    · exact absurd (kinds.trans kind') kind
    · exact ⟨_, isFor_texts s t, BEq.comm (a := s) ▸ isFor_texts t s⟩

/-! ## Members with the same labels -/

theorem mem_items {xs : List Value} {p : Part} :
    p ∈ itemsFrom 0 xs ↔ ∃ i v, xs[i]? = some v ∧ p = .item i v := by
  rw [List.mem_iff_getElem?]
  simp only [getElem?_itemsFrom, Option.map_eq_some_iff, Nat.zero_add, eq_comm (b := p)]

theorem Matching.sameParts {R : Value → Value → Prop} {es es' : List (Key × Value)}
    {m : List ((Key × Value) × (Key × Value))} {part : Key × Value → Part}
    (matching : h.Matching es es' m) (same : ∀ q ∈ m, h.SamePart R (part q.2) (part q.1)) :
    h.SameParts R (es'.map part) (es.map part) := by
  constructor
  · intro p inside
    obtain ⟨e', member, rfl⟩ := List.mem_map.mp inside
    obtain ⟨q, paired, rfl⟩ := List.mem_map.mp (matching.right.mem_iff.mpr member)
    exact ⟨_, List.mem_map_of_mem (matching.mem_left paired), same q paired⟩
  · intro p inside
    obtain ⟨e, member, rfl⟩ := List.mem_map.mp inside
    obtain ⟨q, paired, rfl⟩ := List.mem_map.mp (matching.left ▸ member)
    exact ⟨_, List.mem_map_of_mem (matching.mem_right paired), same q paired⟩

section Pairs

variable {R : Value → Value → Prop}

theorem Members.sameParts (orderly : h.Orderly a b) {q : Meeting}
    {members : List (Value × Value)} (of : h.Members x y q members)
    (left : h.Within a b x) (right : h.Within a b y) (spread : h.Spread y ps)
    (spread' : h.Spread x qs) (values : ∀ p ∈ members, R p.2 p.1)
    (keys : ∀ k v k' v', .entry k v ∈ ps → .entry k' v' ∈ qs → h.repr k = h.repr k' → R k k') :
    h.SameParts R ps qs := by
  cases of with
  | @sequence c d xs ys shape shape' size =>
      cases spread.sequence_eq shape'
      cases spread'.sequence_eq shape
      have faced (i : Nat) (v w : Value) (at_i : xs[i]? = some v) (there : ys[i]? = some w) :
          R w v := by
        refine values (v, w) (List.mem_of_getElem? (i := i) ?_)
        simp [List.getElem?_zip_eq_some, at_i, there]
      constructor
      · intro p inside
        obtain ⟨i, w, there, rfl⟩ := mem_items.mp inside
        have below : i < xs.length := size ▸ (List.getElem?_eq_some_iff.mp there).1
        have at_i := List.getElem?_eq_getElem below
        exact ⟨_, mem_items.mpr ⟨i, _, at_i, rfl⟩, .item (faced i _ w at_i there)⟩
      · intro p inside
        obtain ⟨i, v, at_i, rfl⟩ := mem_items.mp inside
        have below : i < ys.length := size ▸ (List.getElem?_eq_some_iff.mp at_i).1
        have there := List.getElem?_eq_getElem below
        exact ⟨_, mem_items.mpr ⟨i, _, there, rfl⟩, .item (faced i v _ at_i there)⟩
  | @mapping c d kind kind' es es' m shape shape' matching =>
      cases spread.mapping_eq shape'
      cases spread'.mapping_eq shape
      refine matching.sameParts fun q member => ?_
      have first := matching.mem_left member
      have second := matching.mem_right member
      have own : h.MappingKey a b q.1.1.value := ⟨x, c, kind, es, _, left, shape, first, rfl⟩
      have own' : h.MappingKey a b q.2.1.value := ⟨y, d, kind', es', _, right, shape', second, rfl⟩
      have alike := (orderly.keys.sameKey_iff own' own).mp (matching.same q member)
      obtain ⟨text, written⟩ := orderly.keys.written _ own'
      exact .entry written (alike ▸ written)
        (keys _ _ _ _ (List.mem_map_of_mem second) (List.mem_map_of_mem first) alike)
        (values _ (List.mem_map_of_mem member))
  | @structured c d es es' m shape shape' named named' matching =>
      cases spread.structured_eq shape' named'
      cases spread'.structured_eq shape named
      refine matching.sameParts fun q member => ?_
      have first := matching.mem_left member
      have second := matching.mem_right member
      have own : h.KeyWithin a b q.1.1 := ⟨x, es, _, left, .fields shape named, first, rfl⟩
      have own' : h.KeyWithin a b q.2.1 := ⟨y, es', _, right, .fields shape' named', second, rfl⟩
      have same := orderly.settled.keys.symm _ _ own' own (matching.same q member)
      exact .field ((orderly.sameName_iff own' own).mpr same) (values _ (List.mem_map_of_mem member))

theorem SameParts.items {xs ys : List Value}
    (same : h.SameParts R (itemsFrom 0 ys) (itemsFrom 0 xs)) :
    xs.length = ys.length ∧ ∀ p ∈ xs.zip ys, R p.2 p.1 := by
  have forth (i : Nat) (w : Value) (there : ys[i]? = some w) : ∃ v, xs[i]? = some v ∧ R w v := by
    obtain ⟨p, inside, faced⟩ := same.forth _ (mem_items.mpr ⟨i, w, there, rfl⟩)
    obtain ⟨j, v, at_j, rfl⟩ := mem_items.mp inside
    cases faced with
    | item related => exact ⟨v, at_j, related⟩
  have back (i : Nat) (v : Value) (at_i : xs[i]? = some v) : ∃ w, ys[i]? = some w := by
    obtain ⟨p, inside, faced⟩ := same.back _ (mem_items.mpr ⟨i, v, at_i, rfl⟩)
    obtain ⟨j, w, at_j, rfl⟩ := mem_items.mp inside
    cases faced with
    | item related => exact ⟨w, at_j⟩
  constructor
  · refine Nat.le_antisymm (Nat.le_of_not_lt fun more => ?_) (Nat.le_of_not_lt fun more => ?_)
    · obtain ⟨w, there⟩ := back ys.length _ (List.getElem?_eq_getElem more)
      exact Nat.lt_irrefl _ (List.getElem?_eq_some_iff.mp there).1
    · obtain ⟨v, there, _⟩ := forth xs.length _ (List.getElem?_eq_getElem more)
      exact Nat.lt_irrefl _ (List.getElem?_eq_some_iff.mp there).1
  · intro p inside
    obtain ⟨i, here⟩ := List.getElem?_of_mem inside
    obtain ⟨at_i, there⟩ := List.getElem?_zip_eq_some.mp here
    obtain ⟨v, at_i', related⟩ := forth i _ there
    cases at_i.symm.trans at_i'
    exact related

theorem SameParts.matching {es es' : List (Key × Value)} {part : Key × Value → Part}
    (same : h.SameParts R (es'.map part) (es.map part))
    (keys : h.SettledEntries (h.KeyWithin a b) es es')
    (label : ∀ e ∈ es, ∀ e' ∈ es', h.SamePart R (part e') (part e) →
      h.sameKey e.1.value e'.1.value ∧ R e'.2 e.2) :
    ∃ m, h.Matching es es' m ∧ ∀ p ∈ matchedValues m, R p.2 p.1 := by
  refine keys.matching (R := fun v w => R w v) (fun e member => ?_) fun e' member' => ?_
  · obtain ⟨p, inside, faced⟩ := same.back _ (List.mem_map_of_mem member)
    obtain ⟨e', member', rfl⟩ := List.mem_map.mp inside
    exact ⟨e', member', label e member e' member' faced⟩
  · obtain ⟨p, inside, faced⟩ := same.forth _ (List.mem_map_of_mem member')
    obtain ⟨e, member, rfl⟩ := List.mem_map.mp inside
    exact ⟨e, member, (label e member e' member' faced).1⟩

theorem SameParts.members (orderly : h.Orderly a b) (same : h.SameParts R ps qs)
    (left : h.Within a b x) (right : h.Within a b y) (spread : h.Spread y ps)
    (spread' : h.Spread x qs) (kinds : h.kind y = h.kind x) :
    ∃ q members, h.Members x y q members ∧ ∀ p ∈ members, R p.2 p.1 := by
  cases spread' with
  | @sequence c xs shape =>
      cases spread with
      | mapping shape' | structured shape' => simp [kind, shape, shape', Shape.kind] at kinds
      | sequence shape' =>
          obtain ⟨size, related⟩ := same.items
          exact ⟨_, _, .sequence shape shape' size, related⟩
  | @mapping c kind es shape =>
      cases spread with
      | sequence shape' | structured shape' => simp [Heap.kind, shape, shape', Shape.kind] at kinds
      | @mapping d kind' es' shape' =>
          have keys := orderly.settled.entries left right es es' (.mapping shape) (.mapping shape')
          obtain ⟨m, matching, related⟩ := same.matching keys fun e member e' member' faced => by
            have own : h.MappingKey a b e.1.value := ⟨x, c, kind, es, e, left, shape, member, rfl⟩
            have own' : h.MappingKey a b e'.1.value :=
              ⟨y, d, kind', es', e', right, shape', member', rfl⟩
            cases faced with
            | entry written written' _ related =>
                have alike := written'.trans written.symm
                exact ⟨(orderly.keys.sameKey_iff own own').mpr alike, related⟩
          exact ⟨_, _, .mapping shape shape' matching, related⟩
  | @structured c es shape named =>
      cases spread with
      | sequence shape' | mapping shape' => simp [Heap.kind, shape, shape', Shape.kind] at kinds
      | @structured d es' shape' named' =>
          have keys := orderly.settled.entries left right es es' (.fields shape named)
            (.fields shape' named')
          obtain ⟨m, matching, related⟩ := same.matching keys fun e member e' member' faced => by
            cases faced with
            | field name related =>
                have same := orderly.sameName_iff (keys.right e' member') (keys.left e member)
                exact ⟨same.mp name, related⟩
          exact ⟨_, _, .structured shape shape' named named' matching, related⟩

end Pairs

/-! ## Children that agree -/

section Children

variable {P Q : Value → Snapshot → Prop} {es es' : List (Key × Snapshot)}

theorem Labels.unique {key key' : Key} {p : Part} (labels : h.Labels key p)
    (labels' : h.Labels key' p) : key = key' := by
  cases p with
  | item i v => exact labels.trans labels'.symm
  | field n v => exact Except.ok.inj (labels.symm.trans labels')
  | entry k v =>
      obtain ⟨text, told, rfl⟩ := labels
      obtain ⟨text', told', rfl⟩ := labels'
      cases told.symm.trans told'
      rfl

/-- Under the label of a member stands the only one that has it. -/
theorem find?_shown (shown : List.Forall₂ (h.Depicts P) ps es) {p : Part} {key : Key}
    (labels : h.Labels key p) (apart : h.PartsApart [p] ps)
    (total : ∀ e ∈ es, ∃ r, key.isFor h.equal e.1 = .ok r) {e : Key × Snapshot} (member : e ∈ es)
    (here : key.isFor h.equal e.1 = .ok true) : h.find? key.value es = .ok (some e.2) := by
  have current : h.key key.value = .ok key := labels.current
  simp only [find?, under?, current]
  refine Entries.search_found total member here fun e₁ member₁ here₁ => ?_
  obtain ⟨i, there⟩ := List.getElem?_of_mem member
  obtain ⟨j, there₁⟩ := List.getElem?_of_mem member₁
  obtain ⟨q, at_i, depicts⟩ := (forall₂_getElem? shown i).2 _ there
  obtain ⟨q₁, at_j, depicts₁⟩ := (forall₂_getElem? shown j).2 _ there₁
  have place : i = j := apart p List.mem_cons_self i j q q₁ at_i at_j
    (.inl ⟨key, _, labels, depicts.labels, here⟩) (.inl ⟨key, _, labels, depicts₁.labels, here₁⟩)
  subst place
  exact Option.some.inj (there₁.symm.trans there)

/-- Members with one label are shown under it, without a difference if their values have none. -/
theorem SamePart.agrees {R : Value → Value → Prop} {p q : Part} {e e' : Key × Snapshot}
    (same : h.SamePart R p q) (depicts : h.Depicts P p e) (depicts' : h.Depicts Q q e')
    (related : ∀ v w s t, R v w → P v s → Q w t → Snapshot.Agrees h s t) :
    e.1.isFor h.equal e'.1 = .ok true ∧ Snapshot.Agrees h e.2 e'.2 := by
  cases same with
  | item faced =>
      cases depicts with
      | item picture =>
          cases depicts' with
          | item picture' => exact ⟨isFor_self _, related _ _ _ _ faced picture picture'⟩
  | field name faced =>
      cases depicts with
      | field made picture =>
          cases depicts' with
          | field made' picture' =>
              obtain ⟨_, _, now, now', found⟩ := name
              cases made.symm.trans now
              cases made'.symm.trans now'
              exact ⟨found, related _ _ _ _ faced picture picture'⟩
  | entry written written' keys values =>
      cases depicts with
      | entry told key value =>
          cases depicts' with
          | entry told' key' value' =>
              cases told.symm.trans written
              cases told'.symm.trans written'
              exact ⟨isFor_self _, agrees_entryNode.mpr ⟨related _ _ _ _ keys key key',
                related _ _ _ _ values value value'⟩⟩

/-- Children agree that show members with the same labels, if their values have no difference. -/
theorem SameParts.childrenAgree {R : Value → Value → Prop} (same : h.SameParts R ps qs)
    (shown : List.Forall₂ (h.Depicts P) ps es) (shown' : List.Forall₂ (h.Depicts Q) qs es')
    (related : ∀ v w s t, R v w → P v s → Q w t → Snapshot.Agrees h s t)
    (own : h.PartsApart ps ps) (forth : h.PartsApart ps qs) (back : h.PartsApart qs ps)
    (total : ∀ p ∈ ps, ∀ q ∈ ps ++ qs, ∀ key key', h.Labels key p → h.Labels key' q →
      ∃ r, key.isFor h.equal key' = .ok r ∧ key'.isFor h.equal key = .ok r) :
    Snapshot.ChildrenAgree h es es' := by
  obtain ⟨left, left'⟩ := forall₂_mem shown
  obtain ⟨right, right'⟩ := forall₂_mem shown'
  have told {e e₁ : Key × Snapshot} (member : e ∈ es) (member₁ : e₁ ∈ es ++ es') :
      ∃ r, e.1.isFor h.equal e₁.1 = .ok r ∧ e₁.1.isFor h.equal e.1 = .ok r := by
    obtain ⟨p, inside, depicts⟩ := left' e member
    rcases List.mem_append.mp member₁ with member₁ | member₁
    · obtain ⟨q, inside₁, depicts₁⟩ := left' e₁ member₁
      exact total p inside q (List.mem_append_left _ inside₁) _ _ depicts.labels depicts₁.labels
    · obtain ⟨q, inside₁, depicts₁⟩ := right' e₁ member₁
      exact total p inside q (List.mem_append_right _ inside₁) _ _ depicts.labels depicts₁.labels
  constructor
  · intro e member
    obtain ⟨p, inside, depicts⟩ := left' e member
    obtain ⟨q, inside', facing⟩ := same.forth p inside
    obtain ⟨e', member', depicts'⟩ := right q inside'
    obtain ⟨found, agrees⟩ := facing.agrees depicts depicts' related
    have only {rs : List Part} (apart : h.PartsApart ps rs) : h.PartsApart [p] rs :=
      fun p' one => List.mem_singleton.mp one ▸ apart p inside
    refine ⟨e.2, e'.2, ?_, ?_, agrees⟩
    · refine find?_shown shown depicts.labels (only own) (fun e₁ member₁ => ?_) member (isFor_self _)
      exact (told member (List.mem_append_left _ member₁)).imp fun _ r => r.1
    · refine find?_shown shown' depicts.labels (only forth) (fun e₁ member₁ => ?_) member' found
      exact (told member (List.mem_append_right _ member₁)).imp fun _ r => r.1
  · intro e' member'
    obtain ⟨q, inside', depicts'⟩ := right' e' member'
    obtain ⟨p, inside, facing⟩ := same.back q inside'
    obtain ⟨e, member, depicts⟩ := left p inside
    obtain ⟨found, _⟩ := facing.agrees depicts depicts' related
    -- The label on the right finds the one on the left as it is found by it.
    obtain ⟨r, here, here'⟩ := told member (List.mem_append_right _ member')
    cases found.symm.trans here
    refine ⟨e.2, find?_shown shown depicts'.labels ?_ (fun e₁ member₁ => ?_) member here'⟩
    · exact fun q' one => List.mem_singleton.mp one ▸ back q inside'
    · exact (told member₁ (List.mem_append_right _ member')).imp fun _ r => r.2

end Children

end Assay.Heap
