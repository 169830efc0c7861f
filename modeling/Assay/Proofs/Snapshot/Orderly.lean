import Assay.Proofs.Likeness.Separate
import Assay.Proofs.Snapshot.Difference

/-! # Values in order

Where keys are as they were entered, mappings have leaves for keys and objects share no fields with
their class, a composite tells its members as they lie.  What a walk comes by is then what is found
on a way down, and the keys of mappings, which lead nowhere.
-/

namespace Assay

/-- The value that a member holds, its key apart. -/
def Part.held : Part → Value
  | .item _ v | .entry _ v | .field _ v => v

theorem Value.plainOpinion_members {m m' : Member}
    (same : (Value.member m).plainOpinion (.member m') = some true) :
    m = m' ∨ m.transparent = m'.transparent ∧ m.payload = m'.payload := by
  obtain ⟨cls, name, payload, transparent⟩ := m
  obtain ⟨cls', name', payload', transparent'⟩ := m'
  have one (same : (if Value.member ⟨cls, name, payload, transparent⟩ ==
      Value.member ⟨cls', name', payload', transparent'⟩ then some true else none) = some true) :
      (⟨cls, name, payload, transparent⟩ : Member) = ⟨cls', name', payload', transparent'⟩ := by
    split at same
    · rename_i found
      exact Value.member.inj (eq_of_beq found)
    · cases same
  cases transparent with
  | false => cases transparent' <;> cases payload <;> cases payload' <;> exact .inl (one same)
  | true =>
      cases transparent' with
      | false => cases payload <;> cases payload' <;> exact .inl (one same)
      | true =>
          cases payload with
          | number n =>
              cases payload' with
              | number n' => exact .inr ⟨rfl, by simpa [plainOpinion, int?] using same⟩
              | text t' => exact .inl (one same)
          | text t =>
              cases payload' with
              | number n' => exact .inl (one same)
              | text t' => exact .inr ⟨rfl, by simpa [plainOpinion, int?, text?] using same⟩

namespace Heap

variable (h : Heap)

def MappingKey (a b k : Value) : Prop := ∃ v c kind es e, h.Within a b v ∧
  h.shape v = .mapping c kind es ∧ e ∈ es ∧ e.1.value = k

/-- The keys of mappings are leaves.  They are written alike exactly if they are of one class and
    equal, and equal ones are of one class. -/
structure PlainKeys (a b : Value) : Prop where
  leaf : ∀ k, h.MappingKey a b k → h.isLeaf k
  written : ∀ k, h.MappingKey a b k → ∃ text, h.repr k = .ok text
  told : ∀ k k', h.MappingKey a b k → h.MappingKey a b k' →
    (h.repr k = h.repr k' ↔ h.typeOf k = h.typeOf k' ∧ h.equal k k' = .ok true)
  typed : ∀ k k', h.MappingKey a b k → h.MappingKey a b k' → h.sameKey k k' →
    h.typeOf k = h.typeOf k'

/-- Two values have settled keys, those of mappings plain, and nothing is shared by a class. -/
structure Orderly (a b : Value) : Prop where
  settled : h.SettledWithin a b
  keys : h.PlainKeys a b
  unshared : ∀ v c shared, h.Within a b v → h.shape v = .structured c →
    h.sharedFields c = .ok shared → shared = []

/-- The members of a composite as they lie. -/
inductive Spread (v : Value) : List Part → Prop where
  | sequence {c xs} : h.shape v = .sequence c xs → Spread v (itemsFrom 0 xs)
  | mapping {c kind es} : h.shape v = .mapping c kind es →
      Spread v (es.map fun e => .entry e.1.value e.2)
  | structured {c es} : h.shape v = .structured c → h.fields c = .ok es →
      Spread v (es.map fun e => .field e.1.value e.2)

variable {h} {a b v u : Value} {ps : List Part}

/-! ## Keys -/

theorem MappingKey.keyWithin {k : Value} (own : h.MappingKey a b k) :
    ∃ key, h.KeyWithin a b key ∧ key.value = k := by
  obtain ⟨v, c, kind, es, e, within, shape, member, rfl⟩ := own
  exact ⟨e.1, ⟨v, es, e, within, .mapping shape, member, rfl⟩, rfl⟩

theorem PlainKeys.sameKey_iff (keys : h.PlainKeys a b) {k k' : Value} (own : h.MappingKey a b k)
    (own' : h.MappingKey a b k') : h.sameKey k k' ↔ h.repr k = h.repr k' := by
  constructor
  · intro same
    by_cases one : k = k'
    · rw [one]
    · refine (keys.told k k' own own').mpr ⟨keys.typed k k' own own' same, ?_⟩
      have apart : (k == k') = false := by simpa using one
      unfold sameKey sameOr at same
      simp only [apart, Bool.false_eq_true, if_false] at same
      cases equal : h.equal k k' with
      | error f => simp [equal] at same
      | ok b => simpa [equal] using same
  · intro alike
    obtain ⟨_, equal⟩ := (keys.told k k' own own').mp alike
    unfold sameKey sameOr
    split <;> simp_all

/-- Members of one enumeration that are equal and written alike are one. -/
theorem member_eq {m m' : Member} (types : m.cls = m'.cls)
    (alike : h.repr (.member m) = h.repr (.member m'))
    (equal : h.equal (.member m) (.member m') = .ok true) : m = m' := by
  have first : h.asksRightFirst (.member m) (.member m') = false := by
    simp [asksRightFirst, typeOf, types]
  have opinion (eq : Comparison) (m m' : Member) :
      h.opinion eq (.member m) (.member m') = .ok ((Value.member m).plainOpinion (.member m')) := rfl
  have same : m = m' ∨ m.transparent = m'.transparent ∧ m.payload = m'.payload := by
    simp only [Heap.equal, equalWithin_succ, answer, first, opinion, Bool.false_eq_true,
      if_false] at equal
    cases left : (Value.member m).plainOpinion (.member m') with
    | some b =>
        simp only [left, Except.ok.injEq] at equal
        exact Value.plainOpinion_members (equal ▸ left)
    | none =>
        cases right : (Value.member m').plainOpinion (.member m) with
        | some b =>
            simp only [left, right, Except.ok.injEq] at equal
            exact (Value.plainOpinion_members (equal ▸ right)).imp Eq.symm
              fun both => ⟨both.1.symm, both.2.symm⟩
        | none =>
            simp only [left, right, Except.ok.injEq] at equal
            exact .inl (Value.member.inj (eq_of_beq equal))
  rcases same with one | ⟨opened, payload⟩
  · exact one
  · have text : Value.memberText m = Value.memberText m' := Except.ok.inj alike
    have name : m.name = m'.name := by
      simpa [Value.memberText, types, payload, toString] using text
    cases m
    cases m'
    simp_all

theorem PlainKeys.leafEqual (keys : h.PlainKeys a b) {k k' : Value} (own : h.MappingKey a b k)
    (own' : h.MappingKey a b k') (forms : h.form k = h.form k') (alike : h.repr k = h.repr k') :
    h.leafEqual k k' = .ok true := by
  obtain ⟨types, equal⟩ := (keys.told k k' own own').mp alike
  -- As leaves two members of an enumeration must be one, while as keys equal payloads can do.
  cases k with
  | member m =>
      cases k' with
      | member m' => simp [Heap.leafEqual, member_eq types alike equal]
      | ref c => cases body : (h.object c).body <;> simp [form, body] at forms
      | _ => cases forms
  | ref c =>
      cases k' with
      | member m' => cases body : (h.object c).body <;> simp [form, body] at forms
      | _ => exact equal
  | _ =>
      cases k' with
      | member m' => cases forms
      | _ => exact equal

/-- The label of a field is found under the name if it is the same. -/
theorem Orderly.sameName_iff (orderly : h.Orderly a b) {key key' : Key}
    (own : h.KeyWithin a b key) (own' : h.KeyWithin a b key') :
    h.SameName key.value key'.value ↔ h.sameKey key'.value key.value := by
  have settled := orderly.settled.keys
  have now : h.key key.value = .ok key := settled.current key own
  have now' : h.key key'.value = .ok key' := settled.current key' own'
  have found := (settled.comparable key' key own' own).isFor
  simp only [SameName, now, now', Except.ok.injEq]
  constructor
  · rintro ⟨_, _, rfl, rfl, here⟩
    rw [found] at here
    exact Except.ok.inj here
  · exact fun same => ⟨_, _, rfl, rfl, by rw [found, same]⟩

/-! ## Members as they lie -/

/-- Fields that can be told can be told together with those of the class. -/
theorem sharedFields_ok {c : Address} {es : List (Key × Value)} (own : h.fields c = .ok es) :
    ∃ shared, h.sharedFields c = .ok shared := by
  unfold sharedFields
  simp only [own]
  split <;> exact ⟨_, rfl⟩

theorem Spread.hasParts (orderly : h.Orderly a b) (within : h.Within a b v)
    (spread : h.Spread v ps) : h.HasParts v ps := by
  cases spread with
  | sequence shape => exact (hasParts_sequence shape).mpr rfl
  | @mapping c kind es shape =>
      have walk := orderly.settled.keys.walkEntries
        (orderly.settled.apart v es within (.mapping shape))
        (fun e member => ⟨v, es, e, within, .mapping shape, member, rfl⟩) kind
      rw [hasParts_mapping shape, walk, List.map_map, List.map_map]
      rfl
  | structured shape own =>
      obtain ⟨shared, told⟩ := sharedFields_ok own
      cases orderly.unshared v _ shared within shape told
      exact (hasParts_structured shape).mpr ⟨[], _, told, own, rfl⟩

theorem HasParts.not_leaf (members : h.HasParts v ps) {p : Part} (inside : p ∈ ps) :
    ¬ h.isLeaf v := by
  intro leaf
  have kind := members.kind_eq p inside
  cases shape : h.shape v <;> cases p <;>
    simp [isLeaf, Heap.kind, shape, Shape.kind, Part.kind] at leaf kind

theorem HasParts.spread (orderly : h.Orderly a b) (within : h.Within a b v)
    (members : h.HasParts v ps) (composite : ¬ h.isLeaf v) : h.Spread v ps := by
  have lies {qs : List Part} (spread : h.Spread v qs) : h.Spread v ps :=
    members.unique (spread.hasParts orderly within) ▸ spread
  cases shape : h.shape v with
  | leaf => exact absurd (by simp [isLeaf, kind, shape, Shape.kind]) composite
  | sequence c xs => exact lies (.sequence shape)
  | mapping c kind es => exact lies (.mapping shape)
  | structured c =>
      obtain ⟨_, own, _, told, _⟩ := (hasParts_structured shape).mp members
      exact lies (.structured shape told)

theorem Spread.sequence_eq (spread : h.Spread v ps) {c : Address} {xs : List Value}
    (shape : h.shape v = .sequence c xs) : ps = itemsFrom 0 xs := by
  cases spread with
  | mapping other | structured other => cases shape.symm.trans other
  | sequence other => cases shape.symm.trans other; rfl

theorem Spread.mapping_eq (spread : h.Spread v ps) {c : Address} {kind : MappingKind}
    {es : List (Key × Value)} (shape : h.shape v = .mapping c kind es) :
    ps = es.map fun e => .entry e.1.value e.2 := by
  cases spread with
  | sequence other | structured other => cases shape.symm.trans other
  | mapping other => cases shape.symm.trans other; rfl

theorem Spread.structured_eq (spread : h.Spread v ps) {c : Address} {es : List (Key × Value)}
    (shape : h.shape v = .structured c) (own : h.fields c = .ok es) :
    ps = es.map fun e => .field e.1.value e.2 := by
  cases spread with
  | sequence other | mapping other => cases shape.symm.trans other
  | structured other told =>
      cases shape.symm.trans other
      cases own.symm.trans told
      rfl

theorem Spread.held (spread : h.Spread v ps) : ps.map Part.held = h.branches v := by
  cases spread with
  | @sequence c xs shape =>
      refine List.ext_getElem? fun i => ?_
      rw [List.getElem?_map, getElem?_itemsFrom]
      cases here : xs[i]? <;> simp [branches, shape, here, Part.held]
  | mapping shape =>
      simp only [branches, shape, List.map_map]
      rfl
  | structured shape own =>
      simp only [branches, shape, own, List.map_map]
      rfl

theorem Spread.entry_at (spread : h.Spread v ps) {i : Nat} {k w : Value}
    (at_i : ps[i]? = some (.entry k w)) : ∃ c kind es e, h.shape v = .mapping c kind es ∧
      es[i]? = some e ∧ e.1.value = k ∧ e.2 = w := by
  cases spread with
  | sequence =>
      obtain ⟨_, _, absurd⟩ := mem_itemsFrom (List.mem_of_getElem? at_i)
      cases absurd
  | structured =>
      obtain ⟨_, _, absurd⟩ := List.mem_map.mp (List.mem_of_getElem? at_i)
      cases absurd
  | mapping shape =>
      rw [List.getElem?_map, Option.map_eq_some_iff] at at_i
      obtain ⟨e, there, same⟩ := at_i
      cases same
      exact ⟨_, _, _, e, shape, there, rfl, rfl⟩

theorem Spread.field_at (spread : h.Spread v ps) {i : Nat} {n w : Value}
    (at_i : ps[i]? = some (.field n w)) : ∃ c es e, h.shape v = .structured c ∧
      h.fields c = .ok es ∧ es[i]? = some e ∧ e.1.value = n ∧ e.2 = w := by
  cases spread with
  | sequence =>
      obtain ⟨_, _, absurd⟩ := mem_itemsFrom (List.mem_of_getElem? at_i)
      cases absurd
  | mapping =>
      obtain ⟨_, _, absurd⟩ := List.mem_map.mp (List.mem_of_getElem? at_i)
      cases absurd
  | structured shape own =>
      rw [List.getElem?_map, Option.map_eq_some_iff] at at_i
      obtain ⟨e, there, same⟩ := at_i
      cases same
      exact ⟨_, _, e, shape, own, there, rfl, rfl⟩

theorem Spread.key (within : h.Within a b v) (spread : h.Spread v ps) {k w : Value}
    (inside : .entry k w ∈ ps) : h.MappingKey a b k := by
  obtain ⟨i, at_i⟩ := List.getElem?_of_mem inside
  obtain ⟨c, kind, es, e, shape, here, rfl, _⟩ := spread.entry_at at_i
  exact ⟨v, c, kind, es, e, within, shape, List.mem_of_getElem? here, rfl⟩

/-- A member holds a branch, and perhaps a key. -/
theorem Spread.values (within : h.Within a b v) (spread : h.Spread v ps) {p : Part}
    (inside : p ∈ ps) {x : Value} (holds : x ∈ p.values) : x = p.held ∨ h.MappingKey a b x := by
  cases p with
  | item i w | field n w => exact .inl (List.mem_singleton.mp holds)
  | entry k w =>
      rcases List.mem_cons.mp holds with rfl | value
      · exact .inr (spread.key within inside)
      · exact .inl (List.mem_singleton.mp value)

theorem Spread.holds (spread : h.Spread v ps) {p : Part} (inside : p ∈ ps) : h.Holds v p.held :=
  holds_iff_branches.mpr (spread.held ▸ List.mem_map_of_mem inside)

/-! ## What a walk comes by -/

/-- A walk comes by what is found on a way down, and by keys. -/
theorem Orderly.passed (orderly : h.Orderly a b) (within : h.Within a b v)
    (passes : h.PassesBy v u) : h.Reaches v u ∨ h.MappingKey a b u := by
  induction passes with
  | self => exact .inl .refl
  | @member u ps p x _ members present inside ih =>
      rcases ih with reached | key
      · have spread := members.spread orderly (within.below reached) (members.not_leaf present)
        rcases spread.values (within.below reached) present inside with rfl | key
        · exact .inl (reached.tail (spread.holds present))
        · exact .inr key
      · exact absurd (orderly.keys.leaf u key) (members.not_leaf present)

theorem Orderly.passes (orderly : h.Orderly a b) (within : h.Within a b v)
    (reached : h.Reaches v u) : h.PassesBy v u := by
  induction reached with
  | refl => exact .self
  | @tail u w first holds ih =>
      have spread : ∃ ps, h.Spread u ps := by
        cases holds with
        | item shape => exact ⟨_, .sequence shape⟩
        | entry files =>
            cases files with
            | mapping shape => exact ⟨_, .mapping shape⟩
            | fields shape own => exact ⟨_, .structured shape own⟩
      obtain ⟨ps, spread⟩ := spread
      have branch := spread.held ▸ holds_iff_branches.mp holds
      obtain ⟨p, member, rfl⟩ := List.mem_map.mp branch
      refine .member ih (spread.hasParts orderly (within.below first)) member ?_
      cases p <;> simp [Part.held, Part.values]

theorem Orderly.meets (orderly : h.Orderly a b) (within : h.Within a b v) {c : Address}
    (meets : h.Meets v c) : h.HasComposite v c := by
  obtain ⟨u, passes, address⟩ := meets
  rcases orderly.passed within passes with reached | key
  · exact ⟨u, reached, address⟩
  · exact absurd ⟨u, .refl, address⟩ (not_hasComposite_leaf (orderly.keys.leaf u key))

theorem PassesBy.eq_of_leaf (leaf : h.isLeaf v) (passes : h.PassesBy v u) : u = v := by
  induction passes with
  | self => rfl
  | member _ members present _ ih => exact absurd (ih ▸ leaf) (members.not_leaf present)

theorem not_meets_leaf {c : Address} (leaf : h.isLeaf v) : ¬ h.Meets v c := by
  rintro ⟨u, passes, address⟩
  exact not_hasComposite_leaf leaf ⟨v, .refl, passes.eq_of_leaf leaf ▸ address⟩

/-! ## Labels that are told apart -/

theorem Orderly.spread_of_passed (orderly : h.Orderly a b) (passed : h.Passed b a u)
    (members : h.HasParts u ps) {p : Part} (inside : p ∈ ps) :
    h.Within a b u ∧ h.Spread u ps := by
  have within : h.Within a b u := by
    rcases passed with right | left
    · rcases orderly.passed (.inr .refl) right with reached | key
      · exact .inr reached
      · exact absurd (orderly.keys.leaf u key) (members.not_leaf inside)
    · rcases orderly.passed (.inl .refl) left with reached | key
      · exact .inl reached
      · exact absurd (orderly.keys.leaf u key) (members.not_leaf inside)
  exact ⟨within, members.spread orderly within (members.not_leaf inside)⟩

theorem Orderly.keysWrittenApart (orderly : h.Orderly a b) : h.KeysWrittenApart b a := by
  intro u ps passed members i j k w k' w' text at_i at_j told told'
  obtain ⟨within, spread⟩ := orderly.spread_of_passed passed members (List.mem_of_getElem? at_i)
  obtain ⟨c, kind, es, e, shape, here, rfl, rfl⟩ := spread.entry_at at_i
  obtain ⟨_, _, _, e', shape', there, rfl, rfl⟩ := spread.entry_at at_j
  cases shape.symm.trans shape'
  have own (e : Key × Value) (member : e ∈ es) : h.MappingKey a b e.1.value :=
    ⟨u, c, kind, es, e, within, shape, member, rfl⟩
  have same : h.sameKey e.1.value e'.1.value := (orderly.keys.sameKey_iff
    (own e (List.mem_of_getElem? here)) (own e' (List.mem_of_getElem? there))).mpr
      (told.trans told'.symm)
  exact orderly.settled.apart u es within (.mapping shape) i j e.1 e'.1 (by simp [here])
    (by simp [there]) same

theorem Orderly.keyWithin_of_names (orderly : h.Orderly a b) {n : Value} (names : h.Names b a n) :
    ∃ key, h.KeyWithin a b key ∧ key.value = n := by
  obtain ⟨u, ps, w, passed, members, inside⟩ := names
  obtain ⟨within, spread⟩ := orderly.spread_of_passed passed members inside
  obtain ⟨i, at_i⟩ := List.getElem?_of_mem inside
  obtain ⟨c, es, e, shape, own, here, rfl, _⟩ := spread.field_at at_i
  exact ⟨e.1, ⟨u, es, e, within, .fields shape own, List.mem_of_getElem? here, rfl⟩, rfl⟩

theorem Orderly.namesApart (orderly : h.Orderly a b) : h.NamesApart b a := by
  intro u ps passed members i j n n₁ v₁ n₂ v₂ names at_i at_j one other
  obtain ⟨within, spread⟩ := orderly.spread_of_passed passed members (List.mem_of_getElem? at_i)
  obtain ⟨c, es, e, shape, own, here, rfl, rfl⟩ := spread.field_at at_i
  obtain ⟨_, _, e', shape', own', there, rfl, rfl⟩ := spread.field_at at_j
  cases shape.symm.trans shape'
  cases own.symm.trans own'
  obtain ⟨key, named, rfl⟩ := orderly.keyWithin_of_names names
  have keyed (e : Key × Value) (member : e ∈ es) : h.KeyWithin a b e.1 :=
    ⟨u, es, e, within, .fields shape own, member, rfl⟩
  have first := keyed e (List.mem_of_getElem? here)
  have second := keyed e' (List.mem_of_getElem? there)
  have settled := orderly.settled.keys
  -- Whichever of the two is looked for, the name is the same as either field's.
  have same : h.sameKey e.1.value key.value := by
    rcases one with one | one
    · exact (orderly.sameName_iff named first).mp one
    · exact settled.symm _ _ named first ((orderly.sameName_iff first named).mp one)
  have same' : h.sameKey key.value e'.1.value := by
    rcases other with other | other
    · exact settled.symm _ _ second named ((orderly.sameName_iff named second).mp other)
    · exact (orderly.sameName_iff second named).mp other
  exact orderly.settled.apart u es within (.fields shape own) i j e.1 e'.1 (by simp [here])
    (by simp [there]) (settled.trans _ _ _ first named second same same')

end Heap

end Assay
