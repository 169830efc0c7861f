import Assay.Proofs.Renaming.Equality

/-! # Fields on twin heaps

Values that are the same on twin heaps have the same members and the same fields, in the same order.
-/

namespace Assay

variable {R : Renaming}

/-- The same shape with its members at other addresses. -/
inductive Shape.Renamed (R : Renaming) : Shape → Shape → Prop where
  | leaf : Renamed R .leaf .leaf
  | sequence {a a' items items'} : R a a' → R.Values items items' →
      Renamed R (.sequence a items) (.sequence a' items')
  | mapping {a a' kind es es'} : R a a' → R.Filed es es' →
      Renamed R (.mapping a kind es) (.mapping a' kind es')
  | structured {a a'} : R a a' → Renamed R (.structured a) (.structured a')

namespace Shape.Renamed

variable {s s' : Shape} (renamed : s.Renamed R s')

include renamed

theorem kind : s'.kind = s.kind := by
  cases renamed <;> rfl

theorem address? : Option.Rel R s.address? s'.address? := by
  cases renamed with
  | leaf => exact .none
  | sequence here | mapping here | structured here => exact .some here

end Shape.Renamed

theorem Entries.mem_of_mem_distinct {κ : Type} {same : κ → κ → Bool} {keys : List κ} {k : κ}
    (inside : k ∈ distinct same keys) : k ∈ keys := by
  have grown (acc : List κ) : k ∈ keys.foldl (fun acc k =>
      if acc.any (same · k) then acc else acc ++ [k]) acc → k ∈ acc ∨ k ∈ keys := by
    clear inside
    induction keys generalizing acc with
    | nil => exact .inl
    | cons l rest ih =>
        intro inside
        rcases ih _ inside with early | late
        · dsimp only at early
          split at early
          · exact .inl early
          · rcases List.mem_append.mp early with old | here
            · exact .inl old
            · exact .inr (List.mem_singleton.mp here ▸ List.mem_cons_self)
        · exact .inr (List.mem_cons_of_mem _ late)
  exact (grown [] inside).resolve_left List.not_mem_nil

namespace Heap.Twin

variable {h h' : Heap} (twin : h.Twin R h')

include twin

section Values

variable {v v' : Value} (renamed : v.Renamed R v')

include renamed

theorem shape : (h.shape v).Renamed R (h'.shape v') := by
  cases renamed with
  | nan => exact .leaf
  | datum data => cases v <;> first | exact .leaf | cases data
  | @ref a a' here =>
      have object := twin.objects here
      have body := object.body
      simp only [Heap.shape, object.cls, twin.hasFieldSource]
      generalize (h.object a).body = x, (h'.object a').body = x' at body ⊢
      cases body with
      | sequence items => exact .sequence here items
      | mapping entries => exact .mapping here entries
      | members | octets => exact .leaf
      | error => exact .structured here
      | plain =>
          dsimp only
          split
          · exact .structured here
          · exact .leaf

theorem isLeaf : h'.isLeaf v' = h.isLeaf v := by
  simp only [Heap.isLeaf, Heap.kind, (twin.shape renamed).kind]

theorem items : Results R False R.Values (h.items v) (h'.items v') := by
  have data {α : Type} (xs : List α) (f : α → Value) (each : ∀ x, (f x).isDatum = true) :
      R.Values (xs.map f) (xs.map f) := by
    refine List.forall₂_same.mpr fun x inside => ?_
    obtain ⟨y, _, rfl⟩ := List.mem_map.mp inside
    exact .datum (each y)
  have plain {α : Type} (xs : List α) (f : α → Value) (each : ∀ x, (f x).isDatum = true) :
      Results R False R.Values (.ok (xs.map f)) (.ok (xs.map f)) := .ok (data xs f each)
  have refused : Results R False R.Values (.error (.notIterable (h.messageName (h.typeOf v))))
      (.error (.notIterable (h'.messageName (h'.typeOf v')))) := by
    rw [twin.messageName, twin.typeOf renamed]
    exact .message _ _
  unfold Heap.items
  cases renamed with
  | nan here => exact refused
  | datum known =>
      cases v with
      | ref a => cases known
      | text s | bytes bs | range start stop step => exact plain _ _ fun _ => rfl
      | member m =>
          obtain ⟨cls, name, payload, transparent⟩ := m
          cases payload <;> cases transparent <;> first | exact refused | exact plain _ _ fun _ => rfl
      | cls c =>
          dsimp only
          rw [twin.classes]
          generalize (h.classes c).members = ms
          cases ms with
          | nil => exact .message _ _
          | cons m ms =>
              refine .ok (List.forall₂_same.mpr fun x inside => ?_)
              obtain ⟨y, _, rfl⟩ := List.mem_map.mp (Entries.mem_of_mem_distinct inside)
              exact .datum rfl
      | _ => exact refused
  | @ref a a' here => 
      have object := twin.objects here
      have body := object.body
      dsimp only at refused ⊢
      generalize bodyOf : (h.object a).body = x at body ⊢
      generalize bodyOf' : (h'.object a').body = x' at body ⊢
      cases body with
      | sequence items => exact .ok items
      | mapping entries => exact (twin.walkKeysWith twin.equal _ entries).all
      | members keys => exact .ok (Key.inSetOrder_related keys)
      | octets => exact plain _ _ fun _ => rfl
      | error | plain => exact refused

end Values

/-! ## Dictionaries -/

theorem pairOf (index : Nat) {v v' : Value} (renamed : v.Renamed R v') :
    Results R False (Both (Value.Renamed R) (Value.Renamed R)) (h.pairOf index v)
      (h'.pairOf index v') := by
  have refused (n : Nat) : Results R False (Both (Value.Renamed R) (Value.Renamed R))
      (.error (.valueError
        s!"dictionary update sequence element #{index} has length {n}; 2 is required"))
      (.error (.valueError
        s!"dictionary update sequence element #{index} has length {n}; 2 is required")) :=
    .message _ _
  unfold Heap.pairOf
  have items := twin.items renamed
  generalize h.items v = r, h'.items v' = r' at items ⊢
  cases items using Results.both with
  | error same =>
      dsimp only
      rw [same.cls]
      split
      · exact .message _ _
      · exact .error same
  | ok items =>
      rcases items with - | ⟨first, - | ⟨second, - | ⟨third, rest⟩⟩⟩
      · exact refused 0
      · exact refused 1
      · exact .ok ⟨first, second⟩
      · simp only [List.length_cons, rest.length_eq]
        exact refused _

theorem file {es es' : List (Key × Value)} (related : R.Filed es es') {v v' w w' : Value}
    (key : v.Renamed R v') (value : w.Renamed R w') :
    Results R False R.Filed (h.file es v w) (h'.file es' v' w') :=
  twin.fileWith twin.equal key related value

theorem find {ν ν' : Type} {S : ν → ν' → Prop} {es : List (Key × ν)} {es' : List (Key × ν')}
    (related : List.Forall₂ (Both (Key.Renamed R) S) es es') {v v' : Value} (key : v.Renamed R v') :
    Results R False S (h.find v es) (h'.find v' es') :=
  twin.under twin.equal key related

theorem filePairs (index : Nat) {es es' : List (Key × Value)} (related : R.Filed es es')
    {vs vs' : List Value} (values : R.Values vs vs') :
    Results R False R.Filed (h.filePairs index es vs) (h'.filePairs index es' vs') := by
  induction values generalizing index es es' with
  | nil => exact .ok related
  | @cons v v' _ _ here _ ih =>
      simp only [Heap.filePairs]
      have pair := twin.pairOf index here
      generalize h.pairOf index v = r, h'.pairOf index v' = r' at pair ⊢
      cases pair using Results.both with
      | error same => exact .error same
      | @ok p p' pair =>
          dsimp only
          have filed := twin.file related pair.1 pair.2
          generalize h.file es p.1 p.2 = r, h'.file es' p'.1 p'.2 = r' at filed ⊢
          cases filed using Results.both with
          | error same => exact .error same
          | ok filed => exact ih (index + 1) filed

theorem fileKeys {source source' es es' : List (Key × Value)} (from' : R.Filed source source')
    (related : R.Filed es es') {walk walk' : Walk Value}
    (walks : Walks R False (Value.Renamed R) walk walk') :
    Results R False R.Filed (h.fileKeys source es walk) (h'.fileKeys source' es' walk') := by
  induction walks generalizing es es' with
  | nil => exact .ok related
  | cut lacks => exact lacks.elim
  | error same => exact .error same
  | @ok k k' _ _ here _ ih =>
      simp only [Heap.fileKeys]
      have found := twin.find from' here
      generalize h.find k source = r, h'.find k' source' = r' at found ⊢
      cases found using Results.both with
      | error same => exact .error same
      | @ok v v' value =>
          dsimp only
          have filed := twin.file related here value
          generalize h.file es k v = r, h'.file es' k' v' = r' at filed ⊢
          cases filed using Results.both with
          | error same => exact .error same
          | ok filed => exact ih filed

theorem asDictionary {v v' : Value} (renamed : v.Renamed R v') :
    Results R False R.Filed (h.asDictionary v) (h'.asDictionary v') := by
  unfold Heap.asDictionary
  have shape := twin.shape renamed
  generalize h.shape v = s, h'.shape v' = s' at shape ⊢
  cases shape
  case mapping _ _ kind es es' here entries =>
    have keys := (twin.walkKeysWith twin.equal kind entries).all
    generalize left : (h.walkKeysWith h.equal kind es).all = r at keys
    generalize right : (h'.walkKeysWith h'.equal kind es').all = r' at keys
    cases kind
    case dict | defaulting => exact .ok entries
    all_goals
      simp only [Heap.walkKeys, left, right]
      cases keys using Results.both with
      | error same => exact .error same
      | ok keys => exact twin.fileKeys entries .nil (.of_ok keys)
  all_goals
    have items := twin.items renamed
    dsimp only
    generalize h.items v = r, h'.items v' = r' at items ⊢
    cases items using Results.both with
    | error same => exact .error same
    | ok items => exact twin.filePairs 0 .nil items

/-! ## Fields -/

omit twin in
theorem named {es es' : List (String × Value)} (related : R.Named es es') :
    R.Filed (named es) (named es') := by
  refine map_related related ?_
  rintro ⟨name, v⟩ ⟨_, v'⟩ ⟨rfl, value⟩
  exact ⟨Key.renamed_text name, value⟩

theorem attributeFields {o o' : Object} (object : o.Renamed R o') :
    R.Named (h.attributeFields o) (h'.attributeFields o') := by
  unfold Heap.attributeFields
  rw [object.cls, twin.slotNames]
  refine foldl_related object.attrs fun es es' name _ related => ?_
  rw [Entries.contains_related _ name related]
  split
  · exact related
  · have found := rel_or (object.own? name) (twin.classData o.cls name)
    generalize (o.own? name).or (h.classData? o.cls name) = x,
      (o'.own? name).or (h'.classData? o.cls name) = x' at found ⊢
    cases found with
    | none => exact related
    | some value => exact List.rel_append related (.cons ⟨rfl, value⟩ .nil)

variable {a a' : Address} (here : R a a')

include here

theorem recordFields (names : List String) :
    R.Named (h.recordFields a names) (h'.recordFields a' names) := by
  unfold Heap.recordFields
  induction names with
  | nil => exact .nil
  | cons name names ih =>
      have read := twin.attribute? here name
      simp only [List.filterMap_cons]
      generalize h.attribute? a name = x, h'.attribute? a' name = x' at read ⊢
      cases read with
      | none => exact ih
      | some value => exact .cons ⟨rfl, value⟩ ih

theorem fields : Results R False R.Filed (h.fields a) (h'.fields a') := by
  have object := twin.objects here
  have body := object.body
  have impartial := twin.impartial (h.object a).cls
  simp only [Heap.fields, object.cls, twin.classes]
  generalize bodyOf : (h.object a).body = x at body ⊢
  generalize bodyOf' : (h'.object a').body = x' at body ⊢
  cases body
  case error args =>
    exact .ok (named (Entries.insertAll_related _ (.cons ⟨rfl, args⟩ .nil) object.attrs))
  all_goals
    cases source : (h.classes (h.object a).cls).source with
    | registered describe => exact impartial.registered describe source a a' here
    | attributes => exact .ok (named (twin.attributeFields object))
    | record names => exact .ok (named (twin.recordFields here names))
    | described describe =>
        have described := impartial.described describe source a a' here
        dsimp only
        generalize describe h.objects a = r, describe h'.objects a' = r' at described ⊢
        cases described using Results.both with
        | error same => exact .error same
        | ok description =>
            cases description with
            | fields entries => exact .ok entries
            | value renamed => exact twin.asDictionary renamed

omit here

theorem sharedData {taken taken' : String → Bool} (same : ∀ name, taken' name = taken name)
    (lineage : List ClassName) :
    R.Named (h.sharedData taken lineage) (h'.sharedData taken' lineage) := by
  simp only [Heap.sharedData, twin.classes]
  refine foldl_related .nil fun es es' c _ related => ?_
  refine foldl_related related fun es es' entry inside related => ?_
  obtain ⟨name, kept⟩ := entry
  cases kept with
  | behaviour => exact related
  | data v =>
      dsimp only
      rw [same, Entries.contains_related _ name related]
      split
      · exact related
      · exact List.rel_append related (.cons ⟨rfl, (twin.impartial c).data name v inside⟩ .nil)

omit twin in
theorem any_isText {es es' : List (Key × Value)} (related : R.Filed es es') (name : String) :
    es'.any (·.1.isText name) = es.any (·.1.isText name) := by
  induction related with
  | nil => rfl
  | @cons e e' _ _ entry _ ih =>
      have text : e'.1.isText name = e.1.isText name := by
        simp only [Key.isText, entry.1.value.text?]
      simp only [List.any_cons, text, ih]

include here

theorem sharedFields : Results R False R.Filed (h.sharedFields a) (h'.sharedFields a') := by
  simp only [Heap.sharedFields, (twin.objects here).cls, twin.classes, twin.lineage]
  cases source : (h.classes (h.object a).cls).source
  case described describe => exact .ok .nil
  all_goals
    have own := twin.fields here
    dsimp only
    generalize h.fields a = r, h'.fields a' = r' at own ⊢
    cases own using Results.both with
    | error same => exact .error same
    | ok own => exact .ok (named (twin.sharedData (fun name => any_isText own name) _))

omit here

theorem leafEqual {l l' r r' : Value} (left : l.Renamed R l') (right : r.Renamed R r') :
    Results R False Eq (h.leafEqual l r) (h'.leafEqual l' r') := by
  have equal := twin.equal l l' r r' left right
  have itself : Results R False Eq (.ok (l == r)) (.ok (l' == r')) :=
    .ok (left.beq twin.ordered right)
  cases left with
  | nan | ref =>
      cases right with
      | nan | ref => exact equal
      | datum => cases r <;> first | exact equal | exact itself
  | datum =>
      cases right with
      | nan | ref => cases l <;> first | exact equal | exact itself
      | datum => cases l <;> cases r <;> first | exact equal | exact itself

end Heap.Twin

end Assay
