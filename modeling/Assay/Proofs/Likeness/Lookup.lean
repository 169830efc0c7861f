import Assay.Heap.Fields
import Mathlib.Data.Fintype.EquivFin

/-! # Keys that are told apart

What is filed under a key is found at an entry whose key is the same now.  Where no two entries of
a mapping have the same key, a walk that comes to its end meets every entry, whatever the kind of
the mapping; and where two lists are of one length, entries that are found for different ones on the
left are all there are on the right.
-/

namespace Assay

variable {ν : Type}

namespace Entries

theorem search_ok {κ ε : Type} {isKey : κ → Except ε Bool} {es : List (κ × ν)} {v : ν}
    (found : search isKey es = .ok (some v)) : ∃ k, (k, v) ∈ es ∧ isKey k = .ok true := by
  induction es with
  | nil => cases found
  | cons e rest ih =>
      obtain ⟨k, x⟩ := e
      simp only [search] at found
      split at found
      · cases found
      · rename_i here
        cases found
        exact ⟨k, by simp, here⟩
      · obtain ⟨k', member, isFor⟩ := ih found
        exact ⟨k', by simp [member], isFor⟩

end Entries

namespace Heap

variable (h : Heap)

/-- Whether two keys count as the same. -/
def sameKey (x y : Value) : Bool :=
  match sameOr h.equal x y with
  | .ok b => b
  | .error _ => false

/-- No two of the keys are the same. -/
def KeysApart (keys : List Key) : Prop :=
  ∀ (i j : Nat) (k k' : Key), keys[i]? = some k → keys[j]? = some k' →
    h.sameKey k.value k'.value → i = j

variable {h}

/-! ## Finding keys -/

theorem sameKey_of_isFor {key k : Key} (found : key.isFor h.equal k = .ok true) :
    h.sameKey k.value key.value := by
  unfold Key.isFor at found
  split at found
  · simp only [sameKey, found]
  · cases found

theorem under?_ok {v : Value} {es : List (Key × ν)} {x : ν}
    (found : h.under? h.equal v es = .ok (some x)) : ∃ k, (k, x) ∈ es ∧ h.sameKey k.value v := by
  unfold under? key at found
  cases digest : h.digest v with
  | error e => simp [digest, Except.map] at found
  | ok d =>
      simp only [digest, Except.map] at found
      obtain ⟨k, member, isFor⟩ := Entries.search_ok found
      exact ⟨k, member, sameKey_of_isFor isFor⟩

theorem under_ok {v : Value} {es : List (Key × ν)} {x : ν}
    (found : h.under h.equal v es = .ok x) : ∃ k, (k, x) ∈ es ∧ h.sameKey k.value v := by
  unfold under at found
  split at found
  · cases found
  · cases found
  · rename_i found'
    cases found
    exact under?_ok found'

theorem underOwn_ok {v : Value} {es : List (Key × ν)} {x : ν}
    (found : h.underOwn h.equal v es = .ok x) : ∃ k, (k, x) ∈ es ∧ h.sameKey k.value v := by
  unfold underOwn at found
  split at found
  · cases found
  · cases found
  · rename_i found'
    cases found
    exact under?_ok found'

/-! ## Walks -/

namespace KeysApart

variable {es : List (Key × ν)}

/-- The same key is that of the same entry. -/
theorem entry_eq (apart : h.KeysApart (es.map (·.1))) {e e' : Key × ν} (member : e ∈ es)
    (member' : e' ∈ es) (same : h.sameKey e.1.value e'.1.value) : e = e' := by
  obtain ⟨i, here⟩ := List.getElem?_of_mem member
  obtain ⟨j, there⟩ := List.getElem?_of_mem member'
  have place : i = j := apart i j e.1 e'.1 (by simp [here]) (by simp [there]) same
  subst place
  exact Option.some.inj (here.symm.trans there)

/-- An ordered walk that comes to its end meets every key from its place on. -/
theorem mem_orderedPlaces {keys : List Key} (apart : h.KeysApart keys) {limit place : Nat}
    (whole : ∀ p ∈ h.orderedPlaces h.equal keys limit place, ∃ x, p = .ok x) {j : Nat} {k : Key}
    (at_j : keys[j]? = some k) (ahead : place ≤ j) :
    .ok (k.value, j) ∈ h.orderedPlaces h.equal keys limit place := by
  have inside : j < keys.length := (List.getElem?_eq_some_iff.mp at_j).1
  induction limit generalizing place with
  | zero =>
      have more : place < keys.length := by omega
      simp [orderedPlaces, more] at whole
  | succ limit ih =>
      rw [orderedPlaces] at whole ⊢
      split at whole <;> rename_i here
      · have beyond := List.getElem?_eq_none_iff.mp here
        omega
      · rename_i k₀
        split at whole <;> rename_i found
        · simp at whole
        · rename_i place'
          obtain ⟨k', member, same⟩ := underOwn_ok found
          -- The walk looks its own key up and must find it where it is.
          have there : keys[place']? = some k' := by
            simpa using List.mem_zipIdx_iff_getElem?.mp member
          have own : place' = place := apart _ _ _ _ there here same
          subst own
          by_cases last : place' = j
          · subst last
            cases here.symm.trans at_j
            exact List.mem_cons_self
          · refine List.mem_cons_of_mem _ (ih ?_ (by omega))
            exact fun p member => whole p (by simp [member])

/-- A walk that comes to its end meets every entry. -/
theorem mem_walkEntries {kind : MappingKind} {es : List (Key × Value)}
    (apart : h.KeysApart (es.map (·.1))) (whole : ∀ p ∈ h.walkEntries kind es, ∃ x, p = .ok x)
    {e : Key × Value} (member : e ∈ es) : .ok (e.1.value, e.2) ∈ h.walkEntries kind es := by
  unfold walkEntries walkEntriesWith at whole ⊢
  dsimp only at whole ⊢
  split at whole
  · -- An ordered mapping looks its own keys up and goes on behind what it has found.
    have reached : ∀ p ∈ h.orderedPlaces h.equal (es.map (·.1)) (es.map (·.1)).length 0,
        ∃ x, p = .ok x := by
      intro p inside
      obtain ⟨x, ok⟩ := whole _ (List.mem_map_of_mem inside)
      cases p with
      | ok y => exact ⟨y, rfl⟩
      | error f => cases ok
    obtain ⟨j, here⟩ := List.getElem?_of_mem member
    have met := apart.mem_orderedPlaces reached (j := j) (k := e.1) (by simp [here]) (Nat.zero_le j)
    refine List.mem_map.mpr ⟨_, met, ?_⟩
    simp [Except.map, here]
  · have asked : (h.under h.equal e.1.value es).map (e.1.value, ·) ∈
        (es.map (·.1)).map fun k => (h.under h.equal k.value es).map (k.value, ·) :=
      List.mem_map.mpr ⟨e.1, List.mem_map_of_mem member, rfl⟩
    obtain ⟨x, ok⟩ := whole _ asked
    cases found : h.under h.equal e.1.value es with
    | error f => simp [found, Except.map] at ok
    | ok v =>
        obtain ⟨k, member', same⟩ := under_ok found
        cases apart.entry_eq member' member same
        simpa [found, Except.map] using asked
  · exact List.mem_map.mpr ⟨e, member, rfl⟩

end KeysApart

end Heap

/-! ## Counting -/

/-- If everything on the left has its own match on the right, and there is no more on the right
    than on the left, then everything on the right is a match. -/
theorem matched_back {α β : Type} {xs : List α} {ys : List β} {P : α → β → Prop}
    (size : xs.length = ys.length) (found : ∀ x ∈ xs, ∃ y ∈ ys, P x y)
    (own : ∀ (i j : Nat) x x' y, xs[i]? = some x → xs[j]? = some x' → y ∈ ys → P x y → P x' y →
      i = j) {y : β} (member : y ∈ ys) : ∃ x ∈ xs, P x y := by
  have placed (i : Fin xs.length) : ∃ j : Fin ys.length, P xs[i] ys[j] := by
    obtain ⟨y, inside, matched⟩ := found xs[i] (List.getElem_mem _)
    obtain ⟨j, below, there⟩ := List.getElem_of_mem inside
    exact ⟨⟨j, below⟩, by simpa [there] using matched⟩
  -- Distinct matches of as many as there are on the right leave nothing out.
  choose place matched using placed
  have injective : Function.Injective place := by
    intro i j same
    have other := matched j
    rw [← same] at other
    exact Fin.ext (own i j _ _ _ (List.getElem?_eq_getElem i.2) (List.getElem?_eq_getElem j.2)
      (List.getElem_mem _) (matched i) other)
  have onto : Function.Bijective place :=
    (Fintype.bijective_iff_injective_and_card place).mpr ⟨injective, by simpa using size⟩
  obtain ⟨j, below, there⟩ := List.getElem_of_mem member
  obtain ⟨i, here⟩ := onto.2 ⟨j, below⟩
  refine ⟨xs[i], List.getElem_mem _, ?_⟩
  have last := matched i
  rw [here] at last
  simpa [there] using last

/-- If everything on either side has a match, and none has two, then all are matched in pairs. -/
theorem exists_pairs {α β : Type} {xs : List α} {ys : List β} {P : α → β → Prop}
    (once : xs.Nodup) (once' : ys.Nodup) (forth : ∀ x ∈ xs, ∃ y ∈ ys, P x y)
    (back : ∀ y ∈ ys, ∃ x ∈ xs, P x y)
    (left : ∀ x ∈ xs, ∀ x' ∈ xs, ∀ y ∈ ys, P x y → P x' y → x = x')
    (right : ∀ x ∈ xs, ∀ y ∈ ys, ∀ y' ∈ ys, P x y → P x y' → y = y') :
    ∃ m : List (α × β), m.map (·.1) = xs ∧ (m.map (·.2)).Perm ys ∧ ∀ q ∈ m, P q.1 q.2 := by
  choose partner inside matched using forth
  have paired : (xs.attach.map fun x => partner x.1 x.2).Perm ys := by
    refine (List.perm_ext_iff_of_nodup ?_ once').mpr fun y => ?_
    · refine (List.nodup_attach.mpr once).map_on fun x _ x' _ same => Subtype.ext ?_
      exact left _ x.2 _ x'.2 _ (inside _ x.2) (matched _ x.2) (same ▸ matched _ x'.2)
    · constructor
      · intro found
        obtain ⟨x, _, rfl⟩ := List.mem_map.mp found
        exact inside x.1 x.2
      · intro member
        obtain ⟨x, own, here⟩ := back y member
        exact List.mem_map.mpr ⟨⟨x, own⟩, List.mem_attach _ _,
          right x own _ (inside x own) y member (matched x own) here⟩
  refine ⟨xs.attach.map fun x => (x.1, partner x.1 x.2), ?_, ?_, ?_⟩
  · rw [List.map_map]
    exact List.attach_map_subtype_val xs
  · rwa [List.map_map]
  · intro q member
    obtain ⟨x, _, rfl⟩ := List.mem_map.mp member
    exact matched x.1 x.2

end Assay
