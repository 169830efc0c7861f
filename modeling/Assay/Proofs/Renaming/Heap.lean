import Assay.Heap.Fields
import Assay.Proofs.Renaming.Budget
import Assay.Proofs.Renaming.Digest
import Mathlib.Data.Finset.Range

/-! # Heaps that hold the same objects

Two heaps are twins under a renaming if what it renames is the same object on both, and if what a
program says about its classes does not depend on where objects lie. The second heap may hold more
objects than the first one.
-/

namespace Assay

namespace Renaming

/-- The same values one after the other. -/
abbrev Values (R : Renaming) : List Value → List Value → Prop := List.Forall₂ (Value.Renamed R)

/-- The same values under the same names. -/
abbrev Named (R : Renaming) : List (String × Value) → List (String × Value) → Prop :=
  List.Forall₂ (Both Eq (Value.Renamed R))

/-- The same keys one after the other. -/
abbrev Keys (R : Renaming) : List Key → List Key → Prop := List.Forall₂ (Key.Renamed R)

/-- The same values under the same keys. -/
abbrev Filed (R : Renaming) : List (Key × Value) → List (Key × Value) → Prop :=
  List.Forall₂ (Both (Key.Renamed R) (Value.Renamed R))

end Renaming

/-- The same body with its members at other addresses. -/
inductive Body.Renamed (R : Renaming) : Body → Body → Prop where
  | plain : Renamed R .plain .plain
  | sequence {kind items items'} : R.Values items items' →
      Renamed R (.sequence kind items) (.sequence kind items')
  | mapping {kind es es'} : R.Filed es es' → Renamed R (.mapping kind es) (.mapping kind es')
  | members {frozen items items'} : R.Keys items items' →
      Renamed R (.members frozen items) (.members frozen items')
  | octets {bs} : Renamed R (.octets bs) (.octets bs)
  | error {args args'} : args.Renamed R args' → Renamed R (.error args) (.error args')

/-- The same object with its members at other addresses. -/
structure Object.Renamed (R : Renaming) (o o' : Object) : Prop where
  cls : o'.cls = o.cls
  body : o.body.Renamed R o'.body
  attrs : R.Named o.attrs o'.attrs
  slots : R.Named o.slots o'.slots

/-- The same description with its members at other addresses. -/
inductive Description.Renamed (R : Renaming) : Description → Description → Prop where
  | fields {es es'} : R.Filed es es' → Renamed R (.fields es) (.fields es')
  | value {v v'} : v.Renamed R v' → Renamed R (.value v) (.value v')

/-- What a program says about a class holds on both heaps: data of the class are at addresses that
both share, and its own functions make no difference between the objects of the one and of the
other. -/
structure ClassInfo.Impartial (R : Renaming) (os os' : Objects) (info : ClassInfo) : Prop where
  data : ∀ name v, (name, .data v) ∈ info.attributes → v.Renamed R v
  described : ∀ describe, info.source = .described describe → ∀ a a', R a a' →
    Results R False (Description.Renamed R) (describe os a) (describe os' a')
  registered : ∀ describe, info.source = .registered describe → ∀ a a', R a a' →
    Results R False R.Filed (describe os a) (describe os' a')
  compared : ∀ compare, info.equality = .custom compare → ∀ a a' y y', R a a' → y.Renamed R y' →
    Results R False (Value.Renamed R) (compare os a y) (compare os' a' y')
  written : ∀ write, info.text = .custom write → ∀ a a', R a a' →
    Results R False Eq (write os a) (write os' a')

namespace Heap

/-- Objects of the most general class are nothing but themselves. -/
structure PlainRoot (h : Heap) : Prop where
  fields : h.hasFieldSource "object" = false
  equality : (h.classes "object").equality = .identity
  hashing : (h.classes "object").hashing = .identity
  text : (h.classes "object").text = .plain

/-- The second heap holds, among others, the objects of the first one at the addresses that stand
for theirs. -/
structure Twin (R : Renaming) (h h' : Heap) : Prop where
  ordered : R.Ordered
  classes : h'.classes = h.classes
  size : h.objects.size ≤ h'.objects.size
  objects : ∀ {a a' : Address}, R a a' → (h.object a).Renamed R (h'.object a')
  impartial : ∀ c, (h.classes c).Impartial R h.objects h'.objects
  root : h.PlainRoot

end Heap

/-! ## Names -/

namespace Entries

variable {ν ν' κ : Type} {S : ν → ν' → Prop} {es : List (κ × ν)} {es' : List (κ × ν')}

theorem lookup_related (same : κ → κ → Bool) (key : κ) (related : List.Forall₂ (Both Eq S) es es') :
    Option.Rel S (lookup same key es) (lookup same key es') := by
  induction related with
  | nil => exact .none
  | @cons p q _ _ here _ ih =>
      obtain ⟨k, v⟩ := p
      obtain ⟨k', v'⟩ := q
      obtain ⟨rfl, here⟩ := here
      simp only [lookup]
      split
      · exact .some here
      · exact ih

theorem contains_related (same : κ → κ → Bool) (key : κ)
    (related : List.Forall₂ (Both Eq S) es es') :
    contains same key es' = contains same key es := by
  unfold contains
  have found := lookup_related same key related
  generalize lookup same key es = x, lookup same key es' = x' at found ⊢
  cases found <;> rfl

theorem insert_related (same : κ → κ → Bool) (key : κ) {x : ν} {x' : ν'} (value : S x x')
    (related : List.Forall₂ (Both Eq S) es es') :
    List.Forall₂ (Both Eq S) (insert same key x es) (insert same key x' es') := by
  induction related with
  | nil => exact .cons ⟨rfl, value⟩ .nil
  | @cons p q _ _ here rest ih =>
      obtain ⟨k, v⟩ := p
      obtain ⟨k', v'⟩ := q
      obtain ⟨rfl, here⟩ := here
      simp only [insert]
      split
      · exact .cons ⟨rfl, value⟩ rest
      · exact .cons ⟨rfl, here⟩ ih

theorem insertAll_related (same : κ → κ → Bool) {ps : List (κ × ν)} {ps' : List (κ × ν')}
    (related : List.Forall₂ (Both Eq S) es es') (pairs : List.Forall₂ (Both Eq S) ps ps') :
    List.Forall₂ (Both Eq S) (insertAll same es ps) (insertAll same es' ps') := by
  induction pairs generalizing es es' with
  | nil => exact related
  | @cons p q _ _ here _ ih =>
      obtain ⟨k, v⟩ := p
      obtain ⟨k', v'⟩ := q
      obtain ⟨rfl, here⟩ := here
      exact ih (insert_related same k here related)

theorem mem_of_lookup {same : κ → κ → Bool} {key : κ} {v : ν} (found : lookup same key es = some v) :
    ∃ k, (k, v) ∈ es := by
  induction es with
  | nil => cases found
  | cons e rest ih =>
      obtain ⟨k, w⟩ := e
      simp only [lookup] at found
      split at found
      · cases found
        exact ⟨k, List.mem_cons_self⟩
      · obtain ⟨k', inside⟩ := ih found
        exact ⟨k', List.mem_cons_of_mem _ inside⟩

end Entries

theorem rel_or {α β : Type} {S : α → β → Prop} {x y : Option α} {x' y' : Option β}
    (first : Option.Rel S x x') (second : Option.Rel S y y') : Option.Rel S (x.or y) (x'.or y') := by
  cases first with
  | none => exact second
  | some here => exact .some here

theorem Object.Renamed.own? {R : Renaming} {o o' : Object} (renamed : o.Renamed R o')
    (name : String) : Option.Rel (Value.Renamed R) (o.own? name) (o'.own? name) :=
  rel_or (Entries.lookup_related _ name renamed.slots) (Entries.lookup_related _ name renamed.attrs)

theorem Object.renamed_blank (R : Renaming) : Object.blank.Renamed R .blank :=
  ⟨rfl, .plain, .nil, .nil⟩

namespace Heap.Twin

variable {R : Renaming} {h h' : Heap} (twin : h.Twin R h')

include twin

/-! ## Classes -/

theorem messageName (c : ClassName) : h'.messageName c = h.messageName c := by
  simp only [Heap.messageName, twin.classes]

theorem isSubclass (c base : ClassName) : h'.isSubclass c base = h.isSubclass c base := by
  simp only [Heap.isSubclass, Heap.lineage, twin.classes]

theorem lineage (c : ClassName) : h'.lineage c = h.lineage c := by
  simp only [Heap.lineage, twin.classes]

theorem slotNames (c : ClassName) : h'.slotNames c = h.slotNames c := by
  simp only [Heap.slotNames, Heap.lineage, twin.classes]

theorem hasFieldSource (c : ClassName) : h'.hasFieldSource c = h.hasFieldSource c := by
  simp only [Heap.hasFieldSource, twin.classes, twin.slotNames]

theorem typeOf {v v' : Value} (renamed : v.Renamed R v') : h'.typeOf v' = h.typeOf v := by
  cases renamed with
  | nan => rfl
  | ref here => exact (twin.objects here).cls
  | datum data =>
      cases v with
      | ref a => cases data
      | cls name => simp only [Heap.typeOf, twin.classes]
      | _ => rfl

theorem classData (c : ClassName) (name : String) :
    Option.Rel (Value.Renamed R) (h.classData? c name) (h'.classData? c name) := by
  have same : h'.classData? c name = h.classData? c name := by
    simp only [Heap.classData?, Heap.lineage, twin.classes]
  rw [same]
  cases found : h.classData? c name with
  | none => exact .none
  | some v =>
      obtain ⟨base, _, kept⟩ := List.exists_of_findSome?_eq_some found
      split at kept
      · rename_i w looked
        cases kept
        obtain ⟨key, inside⟩ := Entries.mem_of_lookup looked
        exact .some ((twin.impartial base).data key v inside)
      · cases kept

/-! ## Attributes -/

variable {a a' : Address} (here : R a a')

include here

theorem plain_body (plain : (h.object a).body = .plain) : (h'.object a').body = .plain := by
  have body := (twin.objects here).body
  rw [plain] at body
  generalize (h'.object a').body = x at body ⊢
  cases body
  rfl

theorem attribute? (name : String) :
    Option.Rel (Value.Renamed R) (h.attribute? a name) (h'.attribute? a' name) := by
  have object := twin.objects here
  simp only [Heap.attribute?, object.cls]
  exact rel_or (object.own? name) (twin.classData _ name)

theorem readFields (lacking : Prop) (names : List String) :
    Results R lacking R.Values (h.readFields a names) (h'.readFields a' names) := by
  induction names with
  | nil => exact .ok .nil
  | cons name rest ih =>
      simp only [Heap.readFields]
      have read := twin.attribute? here name
      generalize h.attribute? a name = x, h'.attribute? a' name = x' at read ⊢
      cases read with
      | none =>
          rw [twin.messageName, (twin.objects here).cls]
          exact .message _ _
      | some value => exact ih.map fun _ _ values => .cons value values

end Heap.Twin

/-! ## Members of sets -/

theorem Value.inSetOrder_related {R : Renaming} {vs vs' : List Value} (values : R.Values vs vs') :
    R.Values (inSetOrder vs) (inSetOrder vs') := by
  have numbers : vs'.mapM int? = vs.mapM int? := by
    induction values with
    | nil => rfl
    | cons here _ ih => simp only [List.mapM_cons, here.int?, ih]
  unfold inSetOrder
  rw [numbers]
  cases vs.mapM int? with
  | none => exact values
  | some ns =>
      have numbered : List.Forall₂ (Both Eq (Value.Renamed R)) (ns.zip vs) (ns.zip vs') :=
        zip_related (List.forall₂_same.mpr fun _ _ => rfl) values
      refine map_related (forall₂_mergeSort numbered ?_) fun _ _ pair => pair.2
      rintro ⟨m, v⟩ ⟨_, v'⟩ ⟨n, w⟩ ⟨_, w'⟩ ⟨rfl, _⟩ ⟨rfl, _⟩
      rfl

theorem Key.inSetOrder_related {R : Renaming} {ks ks' : List Key} (keys : R.Keys ks ks') :
    R.Values (inSetOrder ks) (inSetOrder ks') :=
  Value.inSetOrder_related (map_related keys fun _ _ key => key.value)

/-! ## Digests -/

namespace Heap

/-- What lies on a heap. -/
def residents (h : Heap) : Finset Value :=
  (Finset.range h.objects.size).map ⟨Value.ref, fun _ _ => Value.ref.inj⟩

variable {h : Heap}

theorem card_residents : h.residents.card = h.objects.size := by simp [residents]

theorem mem_residents {a : Address} : .ref a ∈ h.residents ↔ a < h.objects.size := by
  refine Finset.mem_map.trans ⟨?_, fun here => ⟨a, Finset.mem_range.mpr here, rfl⟩⟩
  rintro ⟨b, here, same⟩
  cases same
  exact Finset.mem_range.mp here

theorem object_of_not_resident {a : Address} (out : .ref a ∉ h.residents) : h.object a = .blank := by
  rw [mem_residents, Nat.not_lt] at out
  simp [object, Array.getElem?_eq_none out]

end Heap

namespace Heap.Twin

variable {R : Renaming} {h h' : Heap} (twin : h.Twin R h') {v v' : Value}

include twin

theorem digestWithin_succ (lacking : Prop) (n m : Nat)
    (digests : ∀ v v', v.Renamed R v' → Results R lacking (Digest.Renamed R) (h.digestWithin n v)
      (h'.digestWithin m v')) (v v' : Value) (renamed : v.Renamed R v') :
    Results R lacking (Digest.Renamed R) (h.digestWithin (n + 1) v) (h'.digestWithin (m + 1) v') := by
  have own : Results R lacking (Digest.Renamed R) (.ok v.digest) (.ok v'.digest) :=
    .ok renamed.digest
  have tuple {vs vs' : List Value} (values : R.Values vs vs') :
      Results R lacking (Digest.Renamed R) ((vs.mapM (h.digestWithin n)).map .ofTuple)
        ((vs'.mapM (h'.digestWithin m)).map .ofTuple) :=
    (Results.mapM values digests).map fun _ _ => Digest.renamed_ofTuple
  cases renamed with
  | nan here => exact own
  | datum data =>
      cases v with
      | ref a => cases data
      | _ => exact own
  | @ref a a' here =>
      have object := twin.objects here
      simp only [Heap.digestWithin, object.cls, twin.messageName, twin.classes]
      have body := object.body
      generalize (h.object a).body = b, (h'.object a').body = b' at body ⊢
      cases body with
      | @sequence kind _ _ items =>
          cases kind with
          | tuple => exact tuple items
          | list | deque => exact .message _ _
      | mapping | octets => exact .message _ _
      | @members frozen _ _ items =>
          cases frozen with
          | false => exact .message _ _
          | true =>
              exact .ok (Digest.renamed_ofMembers twin.ordered
                (map_related items fun _ _ key => key.digest))
      | error => exact own
      | plain =>
          cases hashing : (h.classes (h.object a).cls).hashing with
          | identity => exact own
          | none => exact .message _ _
          | fieldwise fields =>
              simp only [bind, pure, Except.pure]
              refine (twin.readFields here lacking fields).bind fun _ _ values => ?_
              exact (Results.mapM values digests).bind fun _ _ digests =>
                .ok (Digest.renamed_ofTuple digests)

theorem digestWithin_outside (n : Nat) (out : v ∉ h.residents) :
    h.digestWithin (n + 2) v = h.digestWithin (n + 1) v := by
  cases v with
  | ref a =>
      have root := twin.root.hashing
      simp only [Heap.digestWithin, object_of_not_resident out, Object.blank, root]
  | _ => rfl

theorem digest (renamed : v.Renamed R v') :
    Results R False (Digest.Renamed R) (h.digest v) (h'.digest v') := by
  refine Results.settled (Value.Renamed R) h.digestWithin h'.digestWithin twin.ordered ?_
    (fun _ => rfl) (fun _ => rfl) twin.digestWithin_succ h.residents ?_ h.card_residents.le twin.size renamed
  · exact fun _ _ _ left right => (left.eq_iff twin.ordered right).mpr rfl
  · exact fun n _ _ _ out => twin.digestWithin_outside n out

theorem key (renamed : v.Renamed R v') : Results R False (Key.Renamed R) (h.key v) (h'.key v') :=
  (twin.digest renamed).map fun _ _ digest => ⟨renamed, digest⟩

end Heap.Twin

end Assay
