import Assay.Proofs.Likeness.Sharing

/-! # Lookups that may raise

Keys whose comparison raises make a lookup raise, and a walk fail on its way.  Where a lookup comes
to its end, it has still found the entry with the key, provided that the keys are what they were
when they were entered and that none of them is that of two entries.  So a comparison that does not
raise goes on with the members in pairs.
-/

namespace Assay

variable {α β γ ν : Type}

/-- A walk yields the members of a list in order, unless it fails on its way. -/
inductive Yields : Walk α → List α → Prop where
  | done : Yields [] []
  | failed {f rest xs} : Yields (.error f :: rest) xs
  | next {x rest xs} : Yields rest xs → Yields (.ok x :: rest) (x :: xs)

theorem yields_map {xs : List γ} {g : γ → Except Fault β} {f : γ → β}
    (each : ∀ x ∈ xs, ∀ r, g x = .ok r → r = f x) : Yields (xs.map g) (xs.map f) := by
  induction xs with
  | nil => exact .done
  | cons x rest ih =>
      rw [List.map_cons, List.map_cons]
      cases here : g x with
      | error e => exact .failed
      | ok r =>
          obtain rfl := each x List.mem_cons_self r here
          exact .next (ih fun y later => each y (List.mem_cons_of_mem _ later))

theorem Yields.bind {w : Walk α} {xs : List γ} {f : γ → α} {g : α → Except Fault β} {k : γ → β}
    (yields : Yields w (xs.map f)) (each : ∀ x ∈ xs, ∀ r, g (f x) = .ok r → r = k x) :
    Yields (w.map (· >>= g)) (xs.map k) := by
  induction xs generalizing w with
  | nil =>
      cases yields with
      | done => exact .done
      | failed => exact .failed
  | cons x rest ih =>
      cases yields with
      | failed => exact .failed
      | next later =>
          rw [List.map_cons, List.map_cons]
          cases here : g (f x) with
          | error e =>
              rw [show (Except.ok (ε := Fault) (f x) >>= g) = .error e from here]
              exact .failed
          | ok r =>
              obtain rfl := each x List.mem_cons_self r here
              rw [show (Except.ok (ε := Fault) (f x) >>= g) = .ok (k x) from here]
              exact .next (ih later fun y later => each y (List.mem_cons_of_mem _ later))

/-! ## Searches that come to their end -/

theorem Entries.search_only {κ ε : Type} {isKey : κ → Except ε Bool} {es : List (κ × ν)}
    {e : κ × ν} (member : e ∈ es) (here : isKey e.1 = .ok true)
    (only : ∀ e₁ ∈ es, isKey e₁.1 = .ok true → e₁ = e) {r : Option ν}
    (found : Entries.search isKey es = .ok r) : r = some e.2 := by
  induction es with
  | nil => cases member
  | cons e₁ rest ih =>
      simp only [Entries.search] at found
      split at found
      · cases found
      · rename_i passes
        cases only e₁ List.mem_cons_self passes
        exact (Except.ok.inj found).symm
      · rename_i passed
        have later : e ∈ rest := by
          rcases List.mem_cons.mp member with rfl | later
          · cases here.symm.trans passed
          · exact later
        exact ih later (fun e inside => only e (List.mem_cons_of_mem _ inside)) found

theorem anyM_only {ε : Type} {test : α → Except ε Bool} {xs : List α} {x : α} (member : x ∈ xs)
    (passes : test x = .ok true) {r : Bool} (answer : xs.anyM test = .ok r) : r = true := by
  induction xs with
  | nil => cases member
  | cons y rest ih =>
      cases tested : test y with
      | error e => simp [List.anyM, tested, bind, Except.bind] at answer
      | ok b =>
          cases b with
          | true => simpa [List.anyM, tested, bind, Except.bind, pure, Except.pure] using answer.symm
          | false =>
              have later : x ∈ rest := by
                rcases List.mem_cons.mp member with rfl | later
                · cases passes.symm.trans tested
                · exact later
              simp only [List.anyM, tested, bind, Except.bind] at answer
              exact ih later answer

theorem allM_only {ε : Type} {test : α → Except ε Bool} {xs : List α}
    (passes : ∀ x ∈ xs, ∀ r, test x = .ok r → r = true) {r : Bool}
    (answer : xs.allM test = .ok r) : r = true := by
  induction xs with
  | nil => exact (Except.ok.inj answer).symm
  | cons x rest ih =>
      cases tested : test x with
      | error e => simp [List.allM, tested, bind, Except.bind] at answer
      | ok b =>
          obtain rfl := passes x List.mem_cons_self b tested
          simp only [List.allM, tested, bind, Except.bind] at answer
          exact ih (fun y later => passes y (List.mem_cons_of_mem _ later)) answer

namespace Heap

variable (h : Heap)

/-- No two of the keys are the same as a key that is looked for. -/
def NotTwice (k : Key) (keys : List Key) : Prop :=
  ∀ (i j : Nat) (k₁ k₂ : Key), keys[i]? = some k₁ → keys[j]? = some k₂ →
    h.sameKey k₁.value k.value → h.sameKey k₂.value k.value → i = j

/-- The keys within two values have not changed since they were entered, the same keys are filed
    alike, and none of them is that of two entries of one mapping or of two fields of one object. -/
structure KeysKept (a b : Value) : Prop where
  current : ∀ k, h.KeyWithin a b k → h.Current k
  filed : ∀ k k', h.KeyWithin a b k → h.KeyWithin a b k' → h.sameKey k.value k'.value →
    k.digest = k'.digest
  apart : ∀ v es, h.Within a b v → h.Files v es → ∀ k, h.KeyWithin a b k →
    h.NotTwice k (es.map (·.1))

variable {h}

theorem NotTwice.entry_eq {k : Key} {es : List (Key × ν)} (once : h.NotTwice k (es.map (·.1)))
    {e e' : Key × ν} (member : e ∈ es) (member' : e' ∈ es) (same : h.sameKey e.1.value k.value)
    (same' : h.sameKey e'.1.value k.value) : e = e' := by
  obtain ⟨i, here⟩ := List.getElem?_of_mem member
  obtain ⟨j, there⟩ := List.getElem?_of_mem member'
  have place : i = j := once i j e.1 e'.1 (by simp [here]) (by simp [there]) same same'
  subst place
  exact Option.some.inj (here.symm.trans there)

theorem keysApart_of_notTwice {keys : List Key} (once : ∀ k ∈ keys, h.NotTwice k keys) :
    h.KeysApart keys := by
  intro i j k k' at_i at_j same
  exact once k' (List.mem_of_getElem? at_j) i j k k' at_i at_j same (sameKey_self _)

theorem isFor_of_sameKey {k key : Key} (filed : k.digest = key.digest)
    (same : h.sameKey k.value key.value) : key.isFor h.equal k = .ok true := by
  unfold sameKey at same
  split at same
  · rename_i b compared
    simp only [Key.isFor, filed, beq_self_eq_true, if_true, compared, same]
  · cases same

/-- A lookup that comes to its end has found the entry with the key. -/
theorem find?_only {k : Key} (current : h.Current k) {es : List (Key × ν)}
    (once : h.NotTwice k (es.map (·.1))) {e : Key × ν} (member : e ∈ es)
    (same : h.sameKey e.1.value k.value) (filed : e.1.digest = k.digest) {r : Option ν}
    (found : h.find? k.value es = .ok r) : r = some e.2 := by
  have now : h.key k.value = .ok k := current
  simp only [find?, under?, now] at found
  refine Entries.search_only member (isFor_of_sameKey filed same) (fun e₁ inside isFor => ?_) found
  exact once.entry_eq inside member (sameKey_of_isFor isFor) same

/-! ## Walks that may fail -/

theorem yields_orderedPlaces {keys : List Key} (apart : h.KeysApart keys) {limit place : Nat}
    (rest : limit + place = keys.length) : Yields (h.orderedPlaces h.equal keys limit place)
      (((keys.drop place).zipIdx place).map fun k => (k.1.value, k.2)) := by
  induction limit generalizing place with
  | zero =>
      have past : keys.drop place = [] := List.drop_eq_nil_of_le (by omega)
      have past_end : ¬ place < keys.length := by omega
      simp only [orderedPlaces, past_end, if_false, past, List.zipIdx_nil, List.map_nil]
      exact .done
  | succ limit ih =>
      have inside : place < keys.length := by omega
      have here : keys[place]? = some keys[place] := List.getElem?_eq_getElem inside
      have ahead : keys.drop place = keys[place] :: keys.drop (place + 1) :=
        List.drop_eq_getElem_cons inside
      simp only [orderedPlaces, here, ahead, List.zipIdx_cons, List.map_cons]
      cases found : h.underOwn h.equal keys[place].value keys.zipIdx with
      | error e => exact .failed
      | ok place' =>
          obtain ⟨k, member, same⟩ := underOwn_ok found
          have there : keys[place']? = some k := by
            simpa using List.mem_zipIdx_iff_getElem?.mp member
          obtain rfl : place' = place := apart _ _ _ _ there here same
          exact .next (ih (by omega))

/-- A walk through a mapping meets the entries as they lie, unless it loses a key. -/
theorem yields_walkEntries {es : List (Key × Value)} (apart : h.KeysApart (es.map (·.1)))
    (kind : MappingKind) :
    Yields (h.walkEntries kind es) (es.map fun e => (e.1.value, e.2)) := by
  unfold walkEntries walkEntriesWith
  dsimp only
  split
  · have places := yields_orderedPlaces (h := h) apart (Nat.add_zero (es.map (·.1)).length)
    rw [List.drop_zero] at places
    have met := places.bind (g := fun p => .ok (p.1, (es[p.2]?.map (·.2)).getD .null))
      (k := fun k => (k.1.value, (es[k.2]?.map (·.2)).getD .null)) fun k _ r ok =>
        (Except.ok.inj ok).symm
    have listed : ((es.map (·.1)).zipIdx.map
        fun k => (k.1.value, (es[k.2]?.map (·.2)).getD .null)) =
        es.map fun e => (e.1.value, e.2) := by
      rw [List.zipIdx_map, List.map_map]
      refine List.ext_getElem (by simp) fun i below below' => ?_
      have inside : i < es.length := by simpa using below'
      simp [inside]
    rw [← listed]
    exact met
  · rw [List.map_map]
    refine yields_map fun e member r ok => ?_
    simp only [Function.comp] at ok
    cases found : h.under h.equal e.1.value es with
    | error f => simp [found, Except.map] at ok
    | ok v =>
        obtain ⟨k, member', same⟩ := under_ok found
        cases apart.entry_eq member' member same
        simpa [found, Except.map] using ok.symm
  · exact yields_map fun e _ r ok => (Except.ok.inj ok).symm

/-! ## Members in pairs -/

section Entries

variable {a b x y : Value} {es es' : List (Key × Value)} {m : List ((Key × Value) × (Key × Value))}

theorem KeysKept.keysApart (kept : h.KeysKept a b) (within : h.Within a b x)
    (files : h.Files x es) : h.KeysApart (es.map (·.1)) := by
  apply keysApart_of_notTwice
  intro k listed
  obtain ⟨e, member, rfl⟩ := List.mem_map.mp listed
  exact kept.apart x es within files e.1 ⟨x, es, e, within, files, member, rfl⟩

/-- The key of an entry finds nothing but the entry it matches. -/
theorem KeysKept.found (kept : h.KeysKept a b) (left : h.Within a b x) (right : h.Within a b y)
    (files : h.Files x es) (files' : h.Files y es') (matching : h.Matching es es' m)
    {q : (Key × Value) × (Key × Value)} (member : q ∈ m) {r : Option Value}
    (found : h.find? q.1.1.value es' = .ok r) : r = some q.2.2 := by
  have own : h.KeyWithin a b q.1.1 := ⟨x, es, _, left, files, matching.mem_left member, rfl⟩
  have own' : h.KeyWithin a b q.2.1 := ⟨y, es', _, right, files', matching.mem_right member, rfl⟩
  have same := matching.same q member
  exact find?_only (kept.current _ own) (kept.apart y es' right files' _ own)
    (matching.mem_right member) same (kept.filed _ _ own' own same) found

theorem KeysKept.entryPairs (kept : h.KeysKept a b) (left : h.Within a b x)
    (right : h.Within a b y) (files : h.Files x es) (files' : h.Files y es')
    (matching : h.Matching es es' m) (kind : MappingKind) :
    Yields (h.entryPairs es' (h.walkEntries kind es)) (matchedValues m) := by
  have walk := yields_walkEntries (kept.keysApart left files) kind
  rw [← matching.left, List.map_map] at walk
  unfold Heap.entryPairs matchedValues
  rw [← matching.left]
  refine walk.bind fun q member r ok => ?_
  simp only [Function.comp] at ok
  cases lookup : h.find? q.1.1.value es' with
  | error f => simp [lookup, bind, Except.bind] at ok
  | ok value =>
      obtain rfl := kept.found left right files files' matching member lookup
      simpa [lookup, bind, Except.bind, pure, Except.pure] using ok.symm

/-- Of fields that match, those of leaves that are not unequal are passed by. -/
theorem pendingFields_only
    (found : ∀ q ∈ m, ∀ r, h.find? q.1.1.value es' = .ok r → r = some q.2.2)
    (types : ∀ p ∈ matchedValues m, h.typeOf p.1 = h.typeOf p.2)
    (leaves : ∀ p ∈ matchedValues m, h.isLeaf p.1 → h.leafEqual p.1 p.2 ≠ .ok false)
    {r : Option (List (Value × Value))} (passed : h.pendingFields es' (m.map (·.1)) = .ok r) :
    r = some ((matchedValues m).filter fun p => !h.isLeaf p.1) := by
  induction m generalizing r with
  | nil => exact (Except.ok.inj passed).symm
  | cons q rest ih =>
      obtain ⟨⟨name, l⟩, ⟨name', v⟩⟩ := q
      simp only [List.map_cons, pendingFields] at passed
      split at passed
      · cases passed
      · rename_i v' met
        obtain rfl : v' = v := by
          unfold find under at met
          split at met
          · cases met
          · cases met
          · rename_i filed
            cases met
            exact Option.some.inj (found _ List.mem_cons_self _ filed)
        have type : h.typeOf l = h.typeOf v' := types (l, v') List.mem_cons_self
        have others {r' : Option (List (Value × Value))} :=
          ih (r := r') (fun q later => found q (List.mem_cons_of_mem _ later))
            (fun p later => types p (List.mem_cons_of_mem _ later))
            fun p later => leaves p (List.mem_cons_of_mem _ later)
        simp only [type, bne_self_eq_false, Bool.false_eq_true, if_false] at passed
        split at passed
        · rename_i leaf
          split at passed
          · cases passed
          · rename_i unequal
            exact absurd unequal (leaves (l, v') List.mem_cons_self leaf)
          · rw [others passed]
            simp [matchedValues, leaf]
        · rename_i composite
          cases later : h.pendingFields es' (rest.map (·.1)) with
          | error f => simp [later, Except.map] at passed
          | ok r' =>
              obtain rfl := others later
              simp only [later, Except.map, Except.ok.injEq] at passed
              simp [← passed, matchedValues, composite]

theorem KeysKept.membersEqual (kept : h.KeysKept a b) (left : h.Within a b x)
    (right : h.Within a b y) (files : h.Files x es) (files' : h.Files y es')
    (matching : h.Matching es es' m) {r : Bool}
    (compared : membersEqual h.equal (es.map (·.1)) (es'.map (·.1)) = .ok r) : r = true := by
  have size : ¬ (es.map (·.1)).length != (es'.map (·.1)).length := by simp [matching.length]
  rw [Heap.membersEqual, if_neg size] at compared
  refine allM_only (fun k listed r answer => ?_) compared
  obtain ⟨e, inside, rfl⟩ := List.mem_map.mp listed
  obtain ⟨q, member, rfl⟩ := List.mem_map.mp (matching.left ▸ inside)
  have own : h.KeyWithin a b q.1.1 := ⟨x, es, _, left, files, inside, rfl⟩
  have own' : h.KeyWithin a b q.2.1 := ⟨y, es', _, right, files', matching.mem_right member, rfl⟩
  have same := matching.same q member
  exact anyM_only (List.mem_map_of_mem (matching.mem_right member))
    (isFor_of_sameKey (kept.filed _ _ own' own same) same) answer

end Entries

/-- A comparison that does not raise goes on with the members in pairs, but for some leaves that it
    has passed. -/
theorem Members.likePairs_only {a b x y : Value} (kept : h.KeysKept a b) {q : Meeting}
    {members : List (Value × Value)} (of : h.Members x y q members) (left : h.Within a b x)
    (right : h.Within a b y) (types : ∀ p ∈ members, h.typeOf p.1 = h.typeOf p.2)
    (leaves : ∀ p ∈ members, h.isLeaf p.1 → h.leafEqual p.1 p.2 ≠ .ok false)
    {r : Option (Walk (Value × Value))}
    (compared : h.likePairs (h.shape x) (h.shape y) = .ok r) :
    ∃ (keep : Value × Value → Bool) (w : Walk (Value × Value)),
      (∀ p, keep p = false → h.isLeaf p.1) ∧
      r = some w ∧ Yields w (members.filter keep) := by
  have all : ∀ p : Value × Value, (true = false) → h.isLeaf p.1 := fun _ absurd => nomatch absurd
  have listed (pairs : List (Value × Value)) : Yields (pairs.map .ok) pairs := by
    have met : Yields (pairs.map .ok) (pairs.map id) :=
      yields_map fun _ _ _ ok => (Except.ok.inj ok).symm
    rwa [List.map_id] at met
  cases of with
  | sequence shape shape' size =>
      simp only [shape, shape', Heap.likePairs, size, beq_self_eq_true, if_true,
        Except.ok.injEq] at compared
      exact ⟨fun _ => true, _, all, compared.symm, by simpa using listed _⟩
  | mapping shape shape' matching =>
      simp only [shape, shape', Heap.likePairs, matching.length, beq_self_eq_true, if_true,
        Except.ok.injEq] at compared
      refine ⟨fun _ => true, _, all, compared.symm, ?_⟩
      rw [List.filter_true]
      exact kept.entryPairs left right (.mapping shape) (.mapping shape') matching _
  | @structured c d es es' m shape shape' own own' matching =>
      simp only [shape, shape', Heap.likePairs, fieldPairs, own, own', bind, Except.bind]
        at compared
      cases names : Heap.membersEqual h.equal (es.map (·.1)) (es'.map (·.1)) with
      | error f => simp [names, Except.map] at compared
      | ok same =>
          obtain rfl := kept.membersEqual left right (.fields shape own) (.fields shape' own')
            matching names
          simp only [names, if_true] at compared
          cases passed : h.pendingFields es' es with
          | error f => simp [passed, Except.map] at compared
          | ok pairs =>
              rw [← matching.left] at passed
              obtain rfl := pendingFields_only (fun q member r => kept.found left right
                (.fields shape own) (.fields shape' own') matching member) types leaves passed
              rw [matching.left] at passed
              simp only [passed, Except.map, Except.ok.injEq] at compared
              exact ⟨fun p => !h.isLeaf p.1, _, by simp, compared.symm, listed _⟩

end Heap

end Assay
