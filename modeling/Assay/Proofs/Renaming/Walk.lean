import Assay.Proofs.Renaming.Heap

/-! # Walks on twin heaps

Keys are found and mappings walked through on twin heaps in the same way, as long as members are
compared in the same way.
-/

namespace Assay

variable {R : Renaming} {lacking : Prop}

/-- The two comparisons answer in the same way what they are asked on two heaps. -/
def Alike (R : Renaming) (lacking : Prop) (eq eq' : Comparison) : Prop :=
  ∀ x x' y y', x.Renamed R x' → y.Renamed R y' → Results R lacking Eq (eq x y) (eq' x' y')

namespace Entries

variable {ν ν' : Type} {S : ν → ν' → Prop} {es : List (Key × ν)} {es' : List (Key × ν')}
  {isKey isKey' : Key → Except Fault Bool}

theorem search_related
    (each : ∀ k k', k.Renamed R k' → Results R lacking Eq (isKey k) (isKey' k'))
    (related : List.Forall₂ (Both (Key.Renamed R) S) es es') :
    Results R lacking (Option.Rel S) (search isKey es) (search isKey' es') := by
  induction related with
  | nil => exact .ok .none
  | @cons p q _ _ here _ ih =>
      obtain ⟨k, v⟩ := p
      obtain ⟨k', v'⟩ := q
      simp only [search]
      have asked := each k k' here.1
      generalize isKey k = r, isKey' k' = r' at asked ⊢
      cases asked with
      | error same => exact .error same
      | cut lacks => exact .cut lacks
      | @ok b _ same =>
          cases same
          cases b with
          | true => exact .ok (.some here.2)
          | false => exact ih

theorem enter_related {k k' : Key} {x : ν} {x' : ν'} (key : k.Renamed R k') (value : S x x')
    (each : ∀ k k', k.Renamed R k' → Results R lacking Eq (isKey k) (isKey' k'))
    (related : List.Forall₂ (Both (Key.Renamed R) S) es es') :
    Results R lacking (List.Forall₂ (Both (Key.Renamed R) S)) (enter isKey k x es)
      (enter isKey' k' x' es') := by
  induction related with
  | nil => exact .ok (.cons ⟨key, value⟩ .nil)
  | @cons p q _ _ here rest ih =>
      obtain ⟨l, v⟩ := p
      obtain ⟨l', v'⟩ := q
      simp only [enter]
      have asked := each l l' here.1
      generalize isKey l = r, isKey' l' = r' at asked ⊢
      cases asked with
      | error same => exact .error same
      | cut lacks => exact .cut lacks
      | @ok b _ same =>
          cases same
          cases b with
          | true => exact .ok (.cons ⟨here.1, value⟩ rest)
          | false => exact ih.map fun _ _ entered => .cons here entered

end Entries

/-! ## Members -/

section Members

variable {eq eq' : Comparison} (ordered : R.Ordered) (alike : Alike R lacking eq eq')

include ordered alike

theorem sameOr_related {x x' y y' : Value} (left : x.Renamed R x') (right : y.Renamed R y') :
    Results R lacking Eq (sameOr eq x y) (sameOr eq' x' y') := by
  unfold sameOr
  rw [← left.beq ordered right]
  split
  · exact .ok rfl
  · exact alike _ _ _ _ left right

theorem Key.Renamed.isFor {k k' l l' : Key} (key : k.Renamed R k') (other : l.Renamed R l') :
    Results R lacking Eq (k.isFor eq l) (k'.isFor eq' l') := by
  unfold Key.isFor
  rw [← other.digest.beq ordered key.digest]
  split
  · exact sameOr_related ordered alike other.value key.value
  · exact .ok rfl

end Members

/-! ## Walks -/

namespace Heap.Twin

variable {h h' : Heap} {eq eq' : Comparison} (twin : h.Twin R h')

section LostKeys

include twin

theorem lostKey {v v' : Value} (renamed : v.Renamed R v') :
    (h.lostKey v).Renamed R (h'.lostKey v') := by
  have itself : (Fault.keyError v).Renamed R (Fault.keyError v') := ⟨rfl, .cons renamed .nil⟩
  cases renamed with
  | datum data =>
      cases v with
      | ref a => cases data
      | _ => exact itself
  | nan here => exact itself
  | @ref a a' here =>
      have body := (twin.objects here).body
      simp only [Heap.lostKey]
      generalize (h.object a).body = b, (h'.object a').body = b' at body ⊢
      cases body with
      | @sequence kind _ _ items =>
          cases kind with
          | tuple => exact ⟨rfl, items⟩
          | _ => exact itself
      | _ => exact itself

end LostKeys

variable (alike : Alike R lacking eq eq')

section Lookups

variable {ν ν' : Type} {S : ν → ν' → Prop} {es : List (Key × ν)} {es' : List (Key × ν')}
  {v v' : Value} (renamed : v.Renamed R v') (related : List.Forall₂ (Both (Key.Renamed R) S) es es')

include twin alike renamed related

theorem under? : Results R lacking (Option.Rel S) (h.under? eq v es) (h'.under? eq' v' es') := by
  unfold Heap.under?
  have filed : Results R lacking (Key.Renamed R) (h.key v) (h'.key v') := (twin.key renamed).loosen
  generalize h.key v = r, h'.key v' = r' at filed ⊢
  cases filed with
  | error same => exact .error same
  | cut lacks => exact .cut lacks
  | ok key =>
      exact Entries.search_related (fun _ _ other => key.isFor twin.ordered alike other) related

theorem under : Results R lacking S (h.under eq v es) (h'.under eq' v' es') := by
  unfold Heap.under
  have found := twin.under? alike renamed related
  generalize h.under? eq v es = r, h'.under? eq' v' es' = r' at found ⊢
  cases found with
  | error same => exact .error same
  | cut lacks => exact .cut lacks
  | ok found =>
      cases found with
      | none => exact .error ⟨rfl, .cons renamed .nil⟩
      | some here => exact .ok here

theorem underOwn : Results R lacking S (h.underOwn eq v es) (h'.underOwn eq' v' es') := by
  unfold Heap.underOwn
  have found := twin.under? alike renamed related
  generalize h.under? eq v es = r, h'.under? eq' v' es' = r' at found ⊢
  cases found with
  | error same => exact .error same
  | cut lacks => exact .cut lacks
  | ok found =>
      cases found with
      | none => exact .error (twin.lostKey renamed)
      | some here => exact .ok here

theorem fileWith {x : ν} {x' : ν'} (value : S x x') :
    Results R lacking (List.Forall₂ (Both (Key.Renamed R) S)) (h.fileWith eq es v x)
      (h'.fileWith eq' es' v' x') := by
  unfold Heap.fileWith
  have filed : Results R lacking (Key.Renamed R) (h.key v) (h'.key v') := (twin.key renamed).loosen
  generalize h.key v = r, h'.key v' = r' at filed ⊢
  cases filed with
  | error same => exact .error same
  | cut lacks => exact .cut lacks
  | ok key =>
      exact Entries.enter_related key value (fun _ _ other => key.isFor twin.ordered alike other)
        related

end Lookups

include twin alike

theorem orderedPlaces {keys keys' : List Key} (related : R.Keys keys keys') (limit place : Nat) :
    Walks R lacking (Both (Value.Renamed R) Eq) (h.orderedPlaces eq keys limit place)
      (h'.orderedPlaces eq' keys' limit place) := by
  induction limit generalizing place with
  | zero =>
      simp only [Heap.orderedPlaces, ← related.length_eq]
      split
      · exact .error (.text _ _)
      · exact .nil
  | succ limit ih =>
      simp only [Heap.orderedPlaces]
      have here := getElem?_related related place
      generalize keys[place]? = k, keys'[place]? = k' at here ⊢
      cases here with
      | none => exact .nil
      | @some k k' here =>
          have found := twin.underOwn alike here.value (zipIdx_related related 0)
          dsimp only
          generalize h.underOwn eq k.value keys.zipIdx = r,
            h'.underOwn eq' k'.value keys'.zipIdx = r' at found ⊢
          cases found with
          | error same => exact .error same
          | cut lacks => exact .cut lacks
          | ok same =>
              cases same
              exact .ok ⟨here.value, rfl⟩ (ih _)

theorem walkKeysWith (kind : MappingKind) {es es' : List (Key × Value)} (related : R.Filed es es') :
    Walks R lacking (Value.Renamed R) (h.walkKeysWith eq kind es) (h'.walkKeysWith eq' kind es') := by
  have keys : R.Keys (es.map (·.1)) (es'.map (·.1)) := map_related related fun _ _ entry => entry.1
  cases kind with
  | ordered =>
      simp only [Heap.walkKeysWith, ← keys.length_eq]
      exact (twin.orderedPlaces alike keys _ 0).map fun _ _ place => place.1
  | _ => exact Walks.of_each keys fun _ _ key => .ok key.value

theorem walkEntriesWith (kind : MappingKind) {es es' : List (Key × Value)}
    (related : R.Filed es es') :
    Walks R lacking (Both (Value.Renamed R) (Value.Renamed R)) (h.walkEntriesWith eq kind es)
      (h'.walkEntriesWith eq' kind es') := by
  have keys : R.Keys (es.map (·.1)) (es'.map (·.1)) := map_related related fun _ _ entry => entry.1
  cases kind with
  | ordered =>
      simp only [Heap.walkEntriesWith, ← keys.length_eq]
      refine (twin.orderedPlaces alike keys _ 0).map ?_
      rintro ⟨k, place⟩ ⟨k', _⟩ ⟨key, rfl⟩
      refine ⟨key, ?_⟩
      have there := getElem?_related related place
      dsimp only
      generalize es[place]? = e, es'[place]? = e' at there ⊢
      cases there with
      | none => exact .datum rfl
      | some there => exact there.2
  | frozen =>
      exact Walks.of_each keys fun _ _ key =>
        (twin.under alike key.value related).map fun _ _ value => ⟨key.value, value⟩
  | _ => exact Walks.of_each related fun _ _ entry => .ok ⟨entry.1.value, entry.2⟩

theorem fileWalk {walk walk' : Walk (Value × Value)}
    (walks : Walks R lacking (Both (Value.Renamed R) (Value.Renamed R)) walk walk')
    {es es' : List (Key × Value)} (related : R.Filed es es') :
    Results R lacking R.Filed (h.fileWalk eq es walk) (h'.fileWalk eq' es' walk') := by
  induction walks generalizing es es' with
  | nil => exact .ok related
  | error same => exact .error same
  | cut lacks => exact .cut lacks
  | @ok p q _ _ here _ ih =>
      obtain ⟨k, v⟩ := p
      obtain ⟨k', v'⟩ := q
      simp only [Heap.fileWalk]
      have filed := twin.fileWith alike here.1 related here.2
      dsimp only at filed
      generalize h.fileWith eq es k v = r, h'.fileWith eq' es' k' v' = r' at filed ⊢
      cases filed with
      | error same => exact .error same
      | cut lacks => exact .cut lacks
      | ok filed => exact ih filed

end Heap.Twin

end Assay
