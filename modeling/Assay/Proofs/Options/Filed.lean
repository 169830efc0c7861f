import Assay.Proofs.Likeness.Found
import Assay.Proofs.Options.Checked

/-! # Mappings with any keys

A mapping can have objects for keys, which are filed under the digest that they had when they were
entered.  No object has the digest of a text, so that a field is found under its name whatever the
other keys are.  A plain dictionary hands its keys over to a set as they are filed.  Those of any
other mapping are met on a walk and filed anew, so that they have to be told apart still.
-/

namespace Assay

/-- A key that is filed under a digest which its value has had. -/
def Key.Filed (k : Key) : Prop := ∃ h : Heap, h.key k.value = .ok k

/-! ## Digests -/

theorem Digest.ofText_eq {s : String} (named : s ≠ "") : ∃ rest, Digest.ofText s = 1 :: rest := by
  have some : (s.toList.map Char.toNat).isEmpty = false := by
    simpa [String.toList_eq_nil_iff] using named
  simp only [ofText, ofUnits, some, Bool.false_eq_true, if_false]
  exact ⟨_, rfl⟩

namespace Heap

variable {h : Heap}

theorem digest_plain {v : Value} (plain : v.IsPlain) : h.digest v = .ok v.digest := by
  unfold digest digestWithin
  cases v with
  | ref a => exact absurd rfl (plain a)
  | _ => rfl

theorem key_eq_ok {v : Value} {k : Key} :
    h.key v = .ok k ↔ k.value = v ∧ h.digest v = .ok k.digest := by
  obtain ⟨u, d⟩ := k
  cases digest : h.digest v <;> simp [key, digest, Except.map, eq_comm]

/-- Objects are filed by their identity or by their members, and never as a text is. -/
theorem digest_object {a : Address} {d : Digest} (filed : h.digest (.ref a) = .ok d) :
    ∃ n rest, d = n :: rest ∧ n ≠ 1 := by
  simp only [digest, digestWithin] at filed
  cases body : (h.object a).body with
  | sequence kind items =>
      cases kind <;> simp only [body, reduceCtorEq] at filed
      cases made : items.mapM (h.digestWithin h.objects.size) with
      | error e => simp [made, Except.map] at filed
      | ok ds =>
          rw [made] at filed
          cases filed
          exact ⟨2, _, rfl, by decide⟩
  | mapping kind entries => simp [body] at filed
  | members frozen items =>
      cases frozen <;> simp only [body, reduceCtorEq] at filed
      cases filed
      exact ⟨3, _, rfl, by decide⟩
  | octets bs => simp [body] at filed
  | error args =>
      simp only [body] at filed
      cases filed
      exact ⟨9, _, rfl, by decide⟩
  | plain =>
      simp only [body] at filed
      cases hashing : (h.classes (h.object a).cls).hashing with
      | identity =>
          simp only [hashing] at filed
          cases filed
          exact ⟨9, _, rfl, by decide⟩
      | none => simp [hashing] at filed
      | fieldwise fields =>
          simp only [hashing, bind, Except.bind] at filed
          cases read : h.readFields a fields with
          | error e => simp [read] at filed
          | ok vs =>
              simp only [read] at filed
              split at filed
              · cases filed
              · cases filed
                exact ⟨2, _, rfl, by decide⟩

end Heap

/-- A key is plain data under its digest, or an object, and then it is not filed as a text. -/
theorem Key.Filed.cases {k : Key} (filed : k.Filed) : (∃ v, k = .plain v ∧ v.IsPlain) ∨
    (∃ a, k.value = .ref a) ∧ ∀ s ≠ "", k.digest ≠ Digest.ofText s := by
  obtain ⟨h, key⟩ := filed
  obtain ⟨v, d⟩ := k
  have digest : h.digest v = .ok d := (Heap.key_eq_ok.mp key).2
  by_cases plain : v.IsPlain
  · rw [Heap.digest_plain plain] at digest
    cases digest
    exact .inl ⟨v, rfl, plain⟩
  · obtain ⟨a, rfl⟩ : ∃ a, v = .ref a := by simpa [Value.IsPlain] using plain
    refine .inr ⟨⟨a, rfl⟩, fun s named same => ?_⟩
    obtain ⟨n, rest, rfl, other⟩ := Heap.digest_object digest
    obtain ⟨rest', text⟩ := Digest.ofText_eq named
    rw [text] at same
    exact other (List.cons.inj same).1

theorem Key.filed_plain (h : Heap) {v : Value} (plain : v.IsPlain) : (Key.plain v).Filed :=
  ⟨h, by simp only [Heap.key, Key.plain, Heap.digest_plain plain, Except.map]⟩

namespace Heap

variable {h : Heap} {v : Value} {entries : List (Key × Value)} {name : String}

/-! ## Fields -/

theorem isFor_filed {k : Key} (filed : k.Filed) (named : name ≠ "") :
    (Key.text name).isFor h.equal k = .ok (k.isText name) := by
  rcases filed.cases with ⟨v, rfl, plain⟩ | ⟨⟨a, object⟩, apart⟩
  · exact isFor_plain plain
  · have other : (k.digest == (Key.text name).digest) = false :=
      beq_eq_false_iff_ne.mpr (apart name named)
    simp [Key.isFor, other, Key.isText, object, Value.text?]

theorem find?_filed (filed : ∀ e ∈ entries, e.1.Filed) (named : name ≠ "") :
    h.find? (.text name) entries = .ok (stated entries name) := by
  have key : h.key (.text name) = .ok (.text name) := rfl
  unfold find? under?
  rw [key]
  dsimp only
  induction entries with
  | nil => rfl
  | cons e rest ih =>
      obtain ⟨first, others⟩ := List.forall_mem_cons.mp filed
      cases here : e.1.isText name with
      | true => simp [Entries.search, isFor_filed first named, here, stated]
      | false =>
          simp only [Entries.search, isFor_filed first named, here, ih others]
          simp [stated, here]

/-! ## Keys -/

theorem all_map_ok {α β : Type} (f : α → β) (xs : List α) :
    Walk.all (xs.map fun x => .ok (f x)) = .ok (xs.map f) := by
  induction xs with
  | nil => rfl
  | cons x rest ih => simp only [List.map_cons, Walk.all, ih, Except.map]

variable (h) in
/-- Keys that are told apart as they can be filed now. -/
structure AsSet (ks : List Key) : Prop where
  current : ∀ k ∈ ks, h.Current k
  apart : ks.Pairwise fun k k' => k'.isFor h.equal k = .ok false

theorem AsSet.addMembers {before later : List Key} (told : h.AsSet (before ++ later)) :
    h.addMembers before (later.map Key.value) = .ok (before ++ later) := by
  induction later generalizing before with
  | nil => simp [Heap.addMembers]
  | cons k rest ih =>
      have now : h.key k.value = .ok k := told.current k (by simp)
      have others : ∀ k' ∈ before, k.isFor h.equal k' = .ok false := fun k' inside =>
        (List.pairwise_append.mp told.apart).2.2 k' inside k List.mem_cons_self
      have added : h.addMember before k.value = .ok (before ++ [k]) := by
        simp [addMember, now, anyM_false others, Except.map]
      have told : h.AsSet (before ++ [k] ++ rest) := by simpa using told
      have later := ih told
      simp only [List.map_cons, Heap.addMembers, added, later, List.append_assoc,
        List.singleton_append]

/-- A walk over the keys of a mapping meets them as they lie. -/
theorem walkKeys_all {kind : MappingKind}
    (ordered : kind = .ordered → h.KeysFound (entries.map (·.1))) :
    (h.walkKeys kind entries).all = .ok (entries.map (·.1.value)) := by
  have walked : h.walkKeys kind entries = entries.map fun e => .ok e.1.value := by
    unfold Heap.walkKeys walkKeysWith
    cases kind with
    | ordered =>
        simp only [(ordered rfl).orderedPlaces (Nat.add_zero _), List.drop_zero, List.map_map]
        rw [List.zipIdx_map, List.map_map]
        refine List.ext_getElem (by simp) fun i below below' => ?_
        simp [Except.map]
    | _ => simp
  rw [walked, all_map_ok]

/-- A mapping with the given entries.  Keys may have changed since they were entered.  But unless
    they are those of a plain dictionary, they are told apart still, and in an ordered mapping each
    is found where it lies. -/
structure Mapping (h : Heap) (v : Value) (entries : List (Key × Value)) : Prop where
  shape : ∃ a kind, h.shape v = .mapping a kind entries ∧
    (kind = .ordered → h.KeysFound (entries.map (·.1)))
  filed : ∀ e ∈ entries, e.1.Filed
  keys : (∃ a, v = .ref a ∧ (h.object a).cls = "dict" ∧ (h.object a).body = .mapping .dict entries) ∨
    ∃ ks, ks.map Key.value = entries.map (·.1.value) ∧ h.AsSet ks

theorem object_of_shape {a : Address} {kind : MappingKind}
    (shape : h.shape v = .mapping a kind entries) :
    v = .ref a ∧ (h.object a).body = .mapping kind entries := by
  cases v with
  | ref b =>
      simp only [Heap.shape] at shape
      split at shape
      case h_2 body =>
        cases shape
        exact ⟨rfl, body⟩
      all_goals first | cases shape | (split at shape <;> cases shape)
  | _ => cases shape

/-- What a parser makes of a mapping is one. -/
theorem Dictionary.mapping (dictionary : h.Dictionary v entries) : h.Mapping v entries where
  shape := dictionary.shape.imp fun a shape => ⟨.dict, shape, nofun⟩
  filed e inside := by
    obtain ⟨k, same, plain⟩ := dictionary.keys e inside
    exact same ▸ Key.filed_plain h plain
  keys := .inl dictionary.object

namespace Mapping

theorem get (mapping : h.Mapping v entries) (name : String) (named : name ≠ "") :
    Document.get h v name = .ok (field entries name) := by
  obtain ⟨a, kind, shape, _⟩ := mapping.shape
  simp only [Document.get, shape, find?_filed mapping.filed named, Except.map, field]

/-- The members of a mapping as a set have the values of its keys. -/
theorem asMembers (mapping : h.Mapping v entries) :
    ∃ ks, h.asMembers v = .ok ks ∧ ks.map Key.value = entries.map (·.1.value) := by
  rcases mapping.keys with ⟨a, rfl, cls, body⟩ | ⟨ks, values, told⟩
  · rcases object : h.object a with ⟨c, b, attrs, slots⟩
    rw [object] at cls body
    subst cls body
    exact ⟨entries.map (·.1), by simp only [Heap.asMembers, object], List.map_map⟩
  · obtain ⟨a, kind, shape, ordered⟩ := mapping.shape
    obtain ⟨rfl, body⟩ := object_of_shape shape
    have items : h.items (.ref a) = .ok (entries.map (·.1.value)) := by
      simp only [Heap.items, body, walkKeys_all ordered]
    have told : h.AsSet ([] ++ ks) := told
    have added : h.addMembers [] (entries.map (·.1.value)) = .ok ks := values ▸ told.addMembers
    simp only [Heap.asMembers, items, added]
    split
    · rename_i object
      simp [object] at body
    · rename_i object
      simp only [object, Body.mapping.injEq] at body
      exact ⟨_, rfl, by rw [body.2, List.map_map]; rfl⟩
    · exact ⟨ks, rfl, values⟩

end Mapping

end Heap

end Assay
