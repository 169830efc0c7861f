import Assay.Likeness
import Assay.Proofs.Likeness.Lookup

/-! # Keys that are found

A key that has not changed since it was entered is found again where it is, and it is found in
another mapping that has the same key.  So a walk through a mapping meets its entries in order, and
looking keys up pairs the entries of two mappings with the same keys.
-/

namespace Assay

variable {ν : Type}

namespace Entries

/-- What is looked for is found if it is there, nothing else passes for it, and every key can be
    compared. -/
theorem search_found {κ ε : Type} {isKey : κ → Except ε Bool} {es : List (κ × ν)} {e : κ × ν}
    (total : ∀ e ∈ es, ∃ b, isKey e.1 = .ok b) (member : e ∈ es) (here : isKey e.1 = .ok true)
    (only : ∀ e₁ ∈ es, isKey e₁.1 = .ok true → e₁ = e) : search isKey es = .ok (some e.2) := by
  induction es with
  | nil => cases member
  | cons e₁ rest ih =>
      obtain ⟨b, asked⟩ := total e₁ (by simp)
      cases b with
      | true =>
          cases only e₁ (by simp) asked
          simp only [search, asked]
      | false =>
          have later : e ∈ rest := by
            rcases List.mem_cons.mp member with rfl | later
            · cases here.symm.trans asked
            · exact later
          simp only [search, asked]
          exact ih (fun e inside => total e (by simp [inside])) later
            fun e inside => only e (by simp [inside])

theorem search_total {κ ε : Type} {isKey : κ → Except ε Bool} {es : List (κ × ν)}
    (total : ∀ e ∈ es, ∃ b, isKey e.1 = .ok b) : ∃ r, search isKey es = .ok r := by
  induction es with
  | nil => exact ⟨none, rfl⟩
  | cons e rest ih =>
      obtain ⟨b, here⟩ := total e List.mem_cons_self
      cases b with
      | true => exact ⟨some e.2, by simp only [search, here]⟩
      | false =>
          obtain ⟨r, found⟩ := ih fun e later => total e (List.mem_cons_of_mem _ later)
          exact ⟨r, by simp only [search, here, found]⟩

/-- What is found at a place is what lies there. -/
theorem search_zipIdx {κ ε : Type} {isKey : κ → Except ε Bool} {es : List (κ × ν)} {start i : Nat}
    (found : search isKey ((es.map (·.1)).zipIdx start) = .ok (some i)) :
    ∃ e, es[i - start]? = some e ∧ start ≤ i ∧ search isKey es = .ok (some e.2) := by
  induction es generalizing start with
  | nil => cases found
  | cons e rest ih =>
      simp only [List.map_cons, List.zipIdx_cons, search] at found
      split at found
      · cases found
      · rename_i here
        cases found
        exact ⟨e, by simp, Nat.le_refl _, by simp only [search, here]⟩
      · rename_i passed
        obtain ⟨e', there, ahead, found'⟩ := ih found
        have place : i - start = i - (start + 1) + 1 := by omega
        exact ⟨e', by rw [place]; exact there, by omega, by simp only [search, passed, found']⟩

/-- Something is found exactly if a key passes the test. -/
theorem anyM_keys {κ ε : Type} (isKey : κ → Except ε Bool) (es : List (κ × ν)) :
    (es.map (·.1)).anyM isKey = (search isKey es).map (·.isSome) := by
  induction es with
  | nil => rfl
  | cons e rest ih =>
      cases asked : isKey e.1 with
      | error f => simp only [List.map_cons, List.anyM, search, asked, bind, Except.bind, Except.map]
      | ok b =>
          cases b with
          | true =>
              simp only [List.map_cons, List.anyM, search, asked, bind, Except.bind, pure,
                Except.pure, Except.map, Option.isSome_some]
          | false =>
              simpa only [List.map_cons, List.anyM, search, asked, bind, Except.bind] using ih

end Entries

/-- One of a list passes a test that every one of them can be put to. -/
theorem anyM_true {α ε : Type} {test : α → Except ε Bool} {xs : List α}
    (total : ∀ x ∈ xs, ∃ b, test x = .ok b) {x : α} (member : x ∈ xs) (passes : test x = .ok true) :
    xs.anyM test = .ok true := by
  induction xs with
  | nil => cases member
  | cons y rest ih =>
      obtain ⟨b, tested⟩ := total y List.mem_cons_self
      cases b with
      | true => simp only [List.anyM, tested, bind, Except.bind, pure, Except.pure]
      | false =>
          have later : x ∈ rest := by
            rcases List.mem_cons.mp member with rfl | later
            · cases passes.symm.trans tested
            · exact later
          simp only [List.anyM, tested, bind, Except.bind]
          exact ih (fun z inside => total z (List.mem_cons_of_mem _ inside)) later

/-- None of a list passes a test that every one of them fails. -/
theorem anyM_false {α ε : Type} {test : α → Except ε Bool} {xs : List α}
    (fails : ∀ x ∈ xs, test x = .ok false) : xs.anyM test = .ok false := by
  induction xs with
  | nil => rfl
  | cons x rest ih =>
      have here : test x = .ok false := fails x List.mem_cons_self
      simp only [List.anyM, here, bind, Except.bind]
      exact ih fun y later => fails y (List.mem_cons_of_mem _ later)

theorem allM_total {α ε : Type} {test : α → Except ε Bool} {xs : List α}
    (total : ∀ x ∈ xs, ∃ b, test x = .ok b) :
    ∃ b, xs.allM test = .ok b ∧ (b = true → ∀ x ∈ xs, test x = .ok true) := by
  induction xs with
  | nil => exact ⟨true, rfl, by simp⟩
  | cons x rest ih =>
      obtain ⟨b, tested⟩ := total x List.mem_cons_self
      cases b with
      | false => exact ⟨false, by simp [List.allM, tested, bind, Except.bind, pure, Except.pure], by simp⟩
      | true =>
          obtain ⟨b, others, passed⟩ := ih fun y later => total y (List.mem_cons_of_mem _ later)
          refine ⟨b, by simpa only [List.allM, tested, bind, Except.bind] using others, fun all => ?_⟩
          exact List.forall_mem_cons.mpr ⟨tested, passed all⟩

theorem allM_true {α ε : Type} {test : α → Except ε Bool} {xs : List α}
    (passes : ∀ x ∈ xs, test x = .ok true) : xs.allM test = .ok true := by
  induction xs with
  | nil => rfl
  | cons x rest ih =>
      have here : test x = .ok true := passes x List.mem_cons_self
      simp only [List.allM, here, bind, Except.bind]
      exact ih fun y later => passes y (List.mem_cons_of_mem _ later)

namespace Heap

variable {h : Heap}

variable (h) in
/-- A key is the one that its value makes now. -/
def Current (k : Key) : Prop := h.key k.value = .ok k

instance (k : Key) : Decidable (h.Current k) :=
  inferInstanceAs (Decidable (h.key k.value = .ok k))

variable (h) in
/-- Two keys can be compared, and if they are the same they are filed alike. -/
structure Comparable (k k' : Key) : Prop where
  total : ∃ b, sameOr h.equal k.value k'.value = .ok b
  filed : h.sameKey k.value k'.value → k.digest = k'.digest

theorem Comparable.isFor {k k' : Key} (comparable : h.Comparable k k') :
    k'.isFor h.equal k = .ok (h.sameKey k.value k'.value) := by
  obtain ⟨b, total⟩ := comparable.total
  have same : h.sameKey k.value k'.value = b := by simp only [sameKey, total]
  unfold Key.isFor
  by_cases filed : k.digest = k'.digest
  · simp only [filed, beq_self_eq_true, if_true, total, same]
  · have apart : ¬ h.sameKey k.value k'.value := fun same => filed (comparable.filed same)
    simp only [beq_iff_eq, filed, if_false]
    simpa using apart

/-- A current key is found in a mapping that has it. -/
theorem find?_found {k : Key} (current : h.Current k) {es : List (Key × ν)} {e : Key × ν}
    (comparable : ∀ e ∈ es, h.Comparable e.1 k) (member : e ∈ es)
    (here : h.sameKey e.1.value k.value) (only : ∀ e₁ ∈ es, h.sameKey e₁.1.value k.value → e₁ = e) :
    h.find? k.value es = .ok (some e.2) := by
  have now : h.key k.value = .ok k := current
  simp only [find?, under?, now]
  refine Entries.search_found (fun e inside => ⟨_, (comparable e inside).isFor⟩) member ?_
    fun e₁ inside found => only e₁ inside ?_
  · rw [(comparable e member).isFor, here]
  · rw [(comparable e₁ inside).isFor] at found
    exact Except.ok.inj found

variable (h) in
/-- Keys that are as they were entered.  They can be compared, to be the same is an equivalence for
    them, and the same keys are filed alike. -/
structure Settled (K : Key → Prop) : Prop where
  current : ∀ k, K k → h.Current k
  comparable : ∀ k k', K k → K k' → h.Comparable k k'
  symm : ∀ k k', K k → K k' → h.sameKey k.value k'.value → h.sameKey k'.value k.value
  trans : ∀ k k' k'', K k → K k' → K k'' → h.sameKey k.value k'.value →
    h.sameKey k'.value k''.value → h.sameKey k.value k''.value

theorem sameKey_self (v : Value) : h.sameKey v v := by
  simp [sameKey, sameOr]

variable {K : Key → Prop}

theorem Settled.mono {K' : Key → Prop} (settled : h.Settled K) (sub : ∀ k, K' k → K k) :
    h.Settled K' where
  current k own := settled.current k (sub k own)
  comparable k k' own own' := settled.comparable k k' (sub k own) (sub k' own')
  symm k k' own own' := settled.symm k k' (sub k own) (sub k' own')
  trans k k' k'' own own' own'' := settled.trans k k' k'' (sub k own) (sub k' own') (sub k'' own'')

/-- Looking a key up finds the entry that has the same key. -/
theorem Settled.find?_partner (settled : h.Settled K) {es : List (Key × ν)}
    (apart : h.KeysApart (es.map (·.1))) (within : ∀ e ∈ es, K e.1) {k : Key} (own : K k)
    {e : Key × ν} (member : e ∈ es) (same : h.sameKey e.1.value k.value) :
    h.find? k.value es = .ok (some e.2) := by
  refine find?_found (settled.current k own)
    (fun e inside => settled.comparable _ _ (within e inside) own) member same
    fun e₁ inside same₁ => apart.entry_eq inside member ?_
  have back := settled.symm _ _ (within e member) own same
  exact settled.trans _ _ _ (within e₁ inside) own (within e member) same₁ back

/-! ## Walking through a mapping -/

variable (h) in
/-- Looking up a key of a mapping finds it where it lies. -/
def KeysFound (keys : List Key) : Prop :=
  ∀ p ∈ keys.zipIdx, h.find? p.1.value keys.zipIdx = .ok (some p.2)

instance (keys : List Key) : Decidable (h.KeysFound keys) :=
  inferInstanceAs (Decidable (∀ p ∈ keys.zipIdx, _))

/-- Settled keys that are told apart are found. -/
theorem Settled.keysFound (settled : h.Settled K) {keys : List Key} (apart : h.KeysApart keys)
    (within : ∀ k ∈ keys, K k) : h.KeysFound keys := by
  intro p member
  have listed : keys.zipIdx.map (·.1) = keys := List.zipIdx_map_fst 0 keys
  have inside (q : Key × Nat) (member : q ∈ keys.zipIdx) : K q.1 :=
    within q.1 (List.fst_mem_of_mem_zipIdx member)
  exact settled.find?_partner (by rwa [listed]) inside (inside p member) member (sameKey_self _)

namespace KeysFound

theorem place {keys : List Key} (found : h.KeysFound keys) {i : Nat} {k : Key}
    (here : keys[i]? = some k) : h.find? k.value keys.zipIdx = .ok (some i) :=
  found (k, i) (List.mem_zipIdx_iff_getElem?.mpr here)

/-- A key that is found has not changed since it was entered. -/
theorem current {keys : List Key} (found : h.KeysFound keys) {k : Key} (member : k ∈ keys) :
    h.Current k := by
  obtain ⟨i, here⟩ := List.getElem?_of_mem member
  have own := found.place here
  unfold find? under? key at own
  cases now : h.digest k.value with
  | error f => simp [now, Except.map] at own
  | ok d =>
      simp only [now, Except.map] at own
      obtain ⟨k', there, asked⟩ := Entries.search_ok own
      obtain rfl : k' = k := by
        have place := List.mem_zipIdx_iff_getElem?.mp there
        exact Option.some.inj (place.symm.trans here)
      unfold Key.isFor at asked
      split at asked
      · rename_i filed
        obtain rfl : k'.digest = d := eq_of_beq filed
        simp only [Current, key, now, Except.map]
      · cases asked

/-- The key of an entry finds the entry. -/
theorem entry {es : List (Key × ν)} (found : h.KeysFound (es.map (·.1))) {e : Key × ν}
    (member : e ∈ es) : h.find? e.1.value es = .ok (some e.2) := by
  obtain ⟨i, here⟩ := List.getElem?_of_mem member
  have own := found.place (i := i) (k := e.1) (by simp [here])
  unfold find? under? at own ⊢
  split at own
  · cases own
  · obtain ⟨e', there, _, same⟩ := Entries.search_zipIdx own
    cases here.symm.trans there
    exact same

/-- An ordered walk meets the keys from its place on as they lie. -/
theorem orderedPlaces {keys : List Key} (found : h.KeysFound keys) {limit place : Nat}
    (rest : limit + place = keys.length) :
    h.orderedPlaces h.equal keys limit place =
      ((keys.drop place).zipIdx place).map fun k => .ok (k.1.value, k.2) := by
  induction limit generalizing place with
  | zero =>
      have past : keys.drop place = [] := List.drop_eq_nil_of_le (by omega)
      have past_end : ¬ place < keys.length := by omega
      simp only [Heap.orderedPlaces, past_end, if_false, past, List.zipIdx_nil, List.map_nil]
  | succ limit ih =>
      have inside : place < keys.length := by omega
      have here : keys[place]? = some keys[place] := List.getElem?_eq_getElem inside
      have ahead : keys.drop place = keys[place] :: keys.drop (place + 1) :=
        List.drop_eq_getElem_cons inside
      have own : h.underOwn h.equal keys[place].value keys.zipIdx = .ok place := by
        have there := found.place here
        unfold find? at there
        simp only [underOwn, there]
      simp only [Heap.orderedPlaces, here, own, ahead, List.zipIdx_cons, List.map_cons]
      rw [ih (by omega)]

/-- A walk through a mapping meets the entries as they lie. -/
theorem walkEntries {es : List (Key × Value)} (found : h.KeysFound (es.map (·.1)))
    (kind : MappingKind) : h.walkEntries kind es = es.map fun e => .ok (e.1.value, e.2) := by
  unfold Heap.walkEntries walkEntriesWith
  dsimp only
  split
  · rw [found.orderedPlaces (Nat.add_zero _), List.drop_zero, List.zipIdx_map, List.map_map,
      List.map_map]
    refine List.ext_getElem (by simp) fun i below below' => ?_
    have inside : i < es.length := by simpa using below'
    simp [Except.map, inside]
  · rw [List.map_map]
    refine List.map_congr_left fun e member => ?_
    have own := found.entry member
    unfold find? at own
    simp only [Function.comp, under, own, Except.map]
  · rfl

end KeysFound

theorem Settled.walkEntries (settled : h.Settled K) {es : List (Key × Value)}
    (apart : h.KeysApart (es.map (·.1))) (within : ∀ e ∈ es, K e.1) (kind : MappingKind) :
    h.walkEntries kind es = es.map fun e => .ok (e.1.value, e.2) :=
  (settled.keysFound apart (by simpa using within)).walkEntries kind

/-! ## Pairing entries by their keys -/

variable (h) in
/-- Entries on the left, in order, each with one on the right that has the same key.  None is left
    over on either side. -/
structure Matching (es es' : List (Key × Value)) (m : List ((Key × Value) × (Key × Value))) :
    Prop where
  left : m.map (·.1) = es
  right : (m.map (·.2)).Perm es'
  same : ∀ q ∈ m, h.sameKey q.2.1.value q.1.1.value

/-- The values under matching keys. -/
def matchedValues (m : List ((Key × Value) × (Key × Value))) : List (Value × Value) :=
  m.map fun q => (q.1.2, q.2.2)

variable (h K) in
/-- Two lists of entries with settled keys that are told apart. -/
structure SettledEntries (es es' : List (Key × Value)) : Prop extends h.Settled K where
  left : ∀ e ∈ es, K e.1
  right : ∀ e ∈ es', K e.1
  apart : h.KeysApart (es.map (·.1))
  apart' : h.KeysApart (es'.map (·.1))

variable {es es' : List (Key × Value)} {m : List ((Key × Value) × (Key × Value))}

theorem Matching.mem_left (matching : h.Matching es es' m) {q : (Key × Value) × (Key × Value)}
    (member : q ∈ m) : q.1 ∈ es :=
  matching.left ▸ List.mem_map_of_mem member

theorem Matching.mem_right (matching : h.Matching es es' m) {q : (Key × Value) × (Key × Value)}
    (member : q ∈ m) : q.2 ∈ es' :=
  matching.right.mem_iff.mp (List.mem_map_of_mem member)

theorem Matching.length (matching : h.Matching es es' m) : es.length = es'.length := by
  rw [← matching.left, ← matching.right.length_eq, List.length_map, List.length_map]

/-- Entries whose keys are told apart match each with itself. -/
theorem Matching.self (matching : h.Matching es es m) (apart : h.KeysApart (es.map (·.1))) :
    ∀ p ∈ matchedValues m, p.1 = p.2 := by
  intro p inside
  obtain ⟨q, member, rfl⟩ := List.mem_map.mp inside
  have one := apart.entry_eq (matching.mem_right member) (matching.mem_left member)
    (matching.same q member)
  simp only [one]

/-- Of fields that find their partners, those of equal leaves are passed by. -/
theorem pendingFields_matched (found : ∀ q ∈ m, h.find? q.1.1.value es' = .ok (some q.2.2))
    (types : ∀ p ∈ matchedValues m, h.typeOf p.1 = h.typeOf p.2)
    (leaves : ∀ p ∈ matchedValues m, h.isLeaf p.1 → h.leafEqual p.1 p.2 = .ok true) :
    h.pendingFields es' (m.map (·.1)) =
      .ok (some ((matchedValues m).filter fun p => !h.isLeaf p.1)) := by
  induction m with
  | nil => rfl
  | cons q rest ih =>
      obtain ⟨⟨name, l⟩, ⟨name', r⟩⟩ := q
      have here : h.find name.value es' = .ok r := by
        have first := found _ List.mem_cons_self
        unfold find? at first
        simp only [find, under, first]
      have others := ih (fun q later => found q (List.mem_cons_of_mem _ later))
        (fun p later => types p (List.mem_cons_of_mem _ later))
        fun p later => leaves p (List.mem_cons_of_mem _ later)
      have type : h.typeOf l = h.typeOf r := types (l, r) List.mem_cons_self
      cases leaf : h.isLeaf l with
      | true =>
          have equal : h.leafEqual l r = .ok true := leaves (l, r) List.mem_cons_self leaf
          simp [Heap.pendingFields, here, type, leaf, equal, others, matchedValues]
      | false =>
          simp [Heap.pendingFields, here, type, leaf, others, matchedValues, Except.map]

namespace SettledEntries

/-- The key of an entry finds the entry it matches. -/
theorem found (keys : h.SettledEntries K es es') (matching : h.Matching es es' m)
    {q : (Key × Value) × (Key × Value)} (member : q ∈ m) :
    h.find? q.1.1.value es' = .ok (some q.2.2) :=
  keys.find?_partner keys.apart' keys.right (keys.left q.1 (matching.mem_left member))
    (matching.mem_right member) (matching.same q member)

/-- The entries of a mapping are met together with those they match. -/
theorem entryPairs (keys : h.SettledEntries K es es') (matching : h.Matching es es' m)
    (kind : MappingKind) :
    h.entryPairs es' (h.walkEntries kind es) = (matchedValues m).map .ok := by
  rw [keys.walkEntries keys.apart keys.left, Heap.entryPairs, matchedValues, ← matching.left,
    List.map_map, List.map_map, List.map_map]
  refine List.map_congr_left fun q member => ?_
  have found := keys.found matching member
  rw [← matching.left] at *
  simp [found, bind, Except.bind, pure, Except.pure]

/-- Of fields that match, those of equal leaves are passed by. -/
theorem pendingFields (keys : h.SettledEntries K es es') (matching : h.Matching es es' m)
    (types : ∀ p ∈ matchedValues m, h.typeOf p.1 = h.typeOf p.2)
    (leaves : ∀ p ∈ matchedValues m, h.isLeaf p.1 → h.leafEqual p.1 p.2 = .ok true) :
    h.pendingFields es' es =
      .ok (some ((matchedValues m).filter fun p => !h.isLeaf p.1)) := by
  rw [← matching.left]
  exact pendingFields_matched (fun q member => keys.found matching member) types leaves

/-- Lists of fields that match have the same names. -/
theorem membersEqual (keys : h.SettledEntries K es es') (matching : h.Matching es es' m) :
    membersEqual h.equal (es.map (·.1)) (es'.map (·.1)) = .ok true := by
  have size : ¬ (es.map (·.1)).length != (es'.map (·.1)).length := by simp [matching.length]
  rw [Heap.membersEqual, if_neg size]
  refine allM_true fun k listed => ?_
  obtain ⟨e, inside, rfl⟩ := List.mem_map.mp listed
  obtain ⟨q, member, rfl⟩ := List.mem_map.mp (matching.left ▸ inside)
  have comparable (k' : Key) (listed' : k' ∈ es'.map (·.1)) : h.Comparable k' q.1.1 := by
    obtain ⟨e', inside', rfl⟩ := List.mem_map.mp listed'
    exact keys.comparable _ _ (keys.right e' inside') (keys.left q.1 inside)
  have partner : q.2.1 ∈ es'.map (·.1) := List.mem_map_of_mem (matching.mem_right member)
  refine anyM_true (fun k' listed' => ⟨_, (comparable k' listed').isFor⟩) partner ?_
  rw [(comparable _ partner).isFor, matching.same q member]

end SettledEntries

end Heap

end Assay
