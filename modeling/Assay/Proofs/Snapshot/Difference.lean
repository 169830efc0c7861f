import Assay.Proofs.Likeness.Found
import Assay.Proofs.Likeness.Unfolding
import Assay.Proofs.Related
import Assay.Proofs.Snapshot.Agreement
import Assay.Proofs.Snapshot.Drawn

/-! # What has no difference

Two values whose snapshots give no difference unfold to the same structure, with cycles and shared
objects: what faces each other in the two trees is one object, or equal leaves of one class, or
composites of one class with the same labels and, under each of them, members that face each other
in turn.  Labels of one composite must be told apart, so that none of its members is left out.
-/

namespace Assay.Heap

variable (h : Heap)

/-! ## Unfolding with labels -/

/-- Two names of fields are shown under one label. -/
def SameName (n n' : Value) : Prop :=
  ∃ key key', h.key n = .ok key ∧ h.key n' = .ok key' ∧ key.isFor h.equal key' = .ok true

/-- Two members have one label, and what they hold is related. -/
inductive SamePart (R : Value → Value → Prop) : Part → Part → Prop where
  | item {i v w} : R v w → SamePart R (.item i v) (.item i w)
  | field {n n' v w} : h.SameName n n' → R v w → SamePart R (.field n v) (.field n' w)
  | entry {k k' v w text} : h.repr k = .ok text → h.repr k' = .ok text → R k k' → R v w →
      SamePart R (.entry k v) (.entry k' w)

/-- Members have the same labels, and under each of them what is related. -/
structure SameParts (R : Value → Value → Prop) (ps qs : List Part) : Prop where
  forth : ∀ p ∈ ps, ∃ q ∈ qs, h.SamePart R p q
  back : ∀ q ∈ qs, ∃ p ∈ ps, h.SamePart R p q

/-- Two values are the same up to related members. -/
inductive LabelledStep (R : Value → Value → Prop) (x y : Value) : Prop where
  | same {c} : (h.shape x).address? = some c → x = y → LabelledStep R x y
  | leaf : h.typeOf x = h.typeOf y → h.isLeaf x → h.isLeaf y → h.leafEqual x y = .ok true →
      LabelledStep R x y
  | composite {ps qs} : h.typeOf x = h.typeOf y → h.kind x = h.kind y → ¬ h.isLeaf x →
      h.HasParts x ps → h.HasParts y qs → h.SameParts R ps qs → LabelledStep R x y

def Passed (a b u : Value) : Prop := h.PassesBy a u ∨ h.PassesBy b u

/-- Values of one class are made of the same. -/
def FormedByClass (a b : Value) : Prop := ∀ x y, h.PassesBy a x → h.PassesBy b y →
  h.typeOf x = h.typeOf y → h.form x = h.form y

/-- The keys of each mapping are written differently. -/
def KeysWrittenApart (a b : Value) : Prop := ∀ u ps, h.Passed a b u → h.HasParts u ps →
  ∀ (i j : Nat) k v k' v' text, ps[i]? = some (.entry k v) → ps[j]? = some (.entry k' v') →
    h.repr k = .ok text → h.repr k' = .ok text → i = j

/-- Some object has a field of the name. -/
def Names (a b n : Value) : Prop :=
  ∃ u ps v, h.Passed a b u ∧ h.HasParts u ps ∧ .field n v ∈ ps

/-- No name is that of two fields of one object. -/
def NamesApart (a b : Value) : Prop := ∀ u ps, h.Passed a b u → h.HasParts u ps →
  ∀ (i j : Nat) n n₁ v₁ n₂ v₂, h.Names a b n → ps[i]? = some (.field n₁ v₁) →
    ps[j]? = some (.field n₂ v₂) → h.SameName n n₁ ∨ h.SameName n₁ n →
    h.SameName n n₂ ∨ h.SameName n₂ n → i = j

variable {h}

/-! ## Labels -/

theorem key_text (s : String) : h.key (.text s) = .ok (.plain (.text s)) := rfl

theorem key_value {v : Value} {key : Key} (made : h.key v = .ok key) : key.value = v := by
  unfold Heap.key at made
  cases digest : h.digest v with
  | error f => simp [digest, Except.map] at made
  | ok d =>
      simp only [digest, Except.map, Except.ok.injEq] at made
      rw [← made]

theorem Labels.current {key : Key} {p : Part} (labels : h.Labels key p) : h.Current key := by
  cases p with
  | item i v =>
      cases labels
      exact key_text _
  | entry k v =>
      obtain ⟨text, _, rfl⟩ := labels
      exact key_text _
  | field n v =>
      have made : h.key n = .ok key := labels
      unfold Current
      rw [key_value made, made]

theorem isFor_self (key : Key) : key.isFor h.equal key = .ok true := by
  simp [Key.isFor, sameOr]

variable (h) in
/-- Two members are shown under one label. -/
def SameLabel (p q : Part) : Prop :=
  ∃ key key', h.Labels key p ∧ h.Labels key' q ∧ key.isFor h.equal key' = .ok true

theorem SameLabel.self {key : Key} {p : Part} (labels : h.Labels key p) : h.SameLabel p p :=
  ⟨key, key, labels, labels, isFor_self key⟩

variable (h) in
/-- Two members are shown under one label, whichever of them is looked for. -/
def Alike (p q : Part) : Prop := h.SameLabel p q ∨ h.SameLabel q p

variable (h) in
/-- None of the members has the label of two of the parts. -/
def PartsApart (members parts : List Part) : Prop := ∀ p ∈ members, ∀ (i j : Nat) q q',
  parts[i]? = some q → parts[j]? = some q' → h.Alike p q → h.Alike p q' → i = j

/-! ## Members that are shown -/

section Children

variable {P Q : Value → Snapshot → Prop} {ps qs : List Part} {es es' : List (Key × Snapshot)}

/-- Members whose labels are told apart are all kept as children. -/
theorem labelled_depicts {children : List (Key × Snapshot)}
    (shown : List.Forall₂ (h.Depicts P) ps es) (apart : h.PartsApart ps ps)
    (labelled : h.labelled es = .ok children) : children = es := by
  refine labelled_eq labelled (List.pairwise_iff_getElem.mpr fun i j below below' before found => ?_)
  obtain ⟨p, at_i, depicts⟩ := (forall₂_getElem? shown i).2 _ (List.getElem?_eq_getElem below)
  obtain ⟨p', at_j, depicts'⟩ := (forall₂_getElem? shown j).2 _ (List.getElem?_eq_getElem below')
  have same : i = j := apart p' (List.mem_of_getElem? at_j) i j p p' at_i at_j
    (.inl ⟨_, _, depicts'.labels, depicts.labels, found⟩) (.inl (.self depicts'.labels))
  omega

/-- What is found under the label of a member is shown under the same label. -/
theorem find?_depicts (shown : List.Forall₂ (h.Depicts P) ps es) {p : Part} {key : Key}
    (labels : h.Labels key p) {s : Snapshot} (found : h.find? key.value es = .ok (some s)) :
    ∃ (i : Nat) (q : Part) (label : Key), ps[i]? = some q ∧ es[i]? = some (label, s) ∧
      h.Depicts P q (label, s) ∧ h.SameLabel p q := by
  have current : h.key key.value = .ok key := labels.current
  simp only [find?, under?, current] at found
  obtain ⟨label, member, isFor⟩ := Entries.search_ok found
  obtain ⟨i, there⟩ := List.getElem?_of_mem member
  obtain ⟨q, at_i, depicts⟩ := (forall₂_getElem? shown i).2 _ there
  exact ⟨i, q, label, at_i, there, depicts, key, label, labels, depicts.labels, isFor⟩

/-- Where children agree, there is no difference between what is shown of a member and of one with
    the same label; and all members of either side have such a one. -/
theorem agree_places (shown : List.Forall₂ (h.Depicts P) ps es)
    (shown' : List.Forall₂ (h.Depicts Q) qs es') (left : h.PartsApart ps ps)
    (right : h.PartsApart ps qs) (agree : Snapshot.ChildrenAgree h es es') :
    (∀ (i : Nat) p c, ps[i]? = some p → es[i]? = some c →
      ∃ (j : Nat) (q : Part) (c' : Key × Snapshot),
        qs[j]? = some q ∧ es'[j]? = some c' ∧ h.SameLabel p q ∧ Snapshot.Agrees h c.2 c'.2) ∧
    ∀ (j : Nat) q c', qs[j]? = some q → es'[j]? = some c' →
      ∃ (i : Nat) (p : Part) (c : Key × Snapshot),
        ps[i]? = some p ∧ es[i]? = some c ∧ h.SameLabel q p ∧ h.SameLabel p q ∧
        Snapshot.Agrees h c.2 c'.2 := by
  have faced (i : Nat) (p : Part) (c : Key × Snapshot) (at_i : ps[i]? = some p)
      (there : es[i]? = some c) : ∃ (j : Nat) (q : Part) (c' : Key × Snapshot), qs[j]? = some q ∧
        es'[j]? = some c' ∧ h.SameLabel p q ∧ Snapshot.Agrees h c.2 c'.2 := by
    obtain ⟨_, at_i', depicts⟩ := (forall₂_getElem? shown i).2 c there
    cases at_i.symm.trans at_i'
    obtain ⟨s, t, own, other, same⟩ := agree.forth _ (List.mem_of_getElem? there)
    obtain ⟨i', p', label, at_i', there', depicts', alike⟩ := find?_depicts shown depicts.labels own
    have place : i = i' := left p (List.mem_of_getElem? at_i) i i' p p' at_i at_i'
      (.inl (.self depicts.labels)) (.inl alike)
    subst place
    cases there.symm.trans there'
    obtain ⟨j, q, k', at_j, facing, _, alike'⟩ := find?_depicts shown' depicts.labels other
    exact ⟨j, q, _, at_j, facing, alike', same⟩
  refine ⟨faced, fun j q c' at_j there => ?_⟩
  obtain ⟨_, at_j', depicts⟩ := (forall₂_getElem? shown' j).2 c' there
  cases at_j.symm.trans at_j'
  obtain ⟨s, found⟩ := agree.back _ (List.mem_of_getElem? there)
  obtain ⟨i, p, label, at_i, here, _, alike⟩ := find?_depicts shown depicts.labels found
  -- The member that is found faces one on the right, and that can only be where we came from.
  obtain ⟨j', q', c'', at_j', there', alike', same⟩ := faced i p _ at_i here
  have place : j = j' := right p (List.mem_of_getElem? at_i) j j' q q' at_j at_j' (.inr alike)
    (.inl alike')
  subst place
  cases at_j.symm.trans at_j'
  cases there.symm.trans there'
  exact ⟨i, p, _, at_i, here, alike, alike', same⟩

/-- Where children agree, a member faces one with the same label, and there is no difference between
    what is shown of them; and all members of either side are faced. -/
theorem agree_depicts (shown : List.Forall₂ (h.Depicts P) ps es)
    (shown' : List.Forall₂ (h.Depicts Q) qs es') (left : h.PartsApart ps ps)
    (right : h.PartsApart ps qs) (agree : Snapshot.ChildrenAgree h es es') :
    (∀ p ∈ ps, ∃ q ∈ qs, ∃ k s k' t, h.Depicts P p (k, s) ∧ h.Depicts Q q (k', t) ∧
      h.SameLabel p q ∧ Snapshot.Agrees h s t) ∧
    ∀ q ∈ qs, ∃ p ∈ ps, ∃ k s k' t, h.Depicts P p (k, s) ∧ h.Depicts Q q (k', t) ∧
      h.SameLabel p q ∧ Snapshot.Agrees h s t := by
  obtain ⟨forth, back⟩ := agree_places shown shown' left right agree
  have face {i j : Nat} {p q : Part} {c c' : Key × Snapshot} (at_i : ps[i]? = some p)
      (here : es[i]? = some c) (at_j : qs[j]? = some q) (there : es'[j]? = some c') :
      h.Depicts P p c ∧ h.Depicts Q q c' := by
    obtain ⟨_, at_i', depicts⟩ := (forall₂_getElem? shown i).2 c here
    obtain ⟨_, at_j', depicts'⟩ := (forall₂_getElem? shown' j).2 c' there
    cases at_i.symm.trans at_i'
    cases at_j.symm.trans at_j'
    exact ⟨depicts, depicts'⟩
  constructor
  · intro p inside
    obtain ⟨i, at_i⟩ := List.getElem?_of_mem inside
    obtain ⟨c, here, _⟩ := (forall₂_getElem? shown i).1 p at_i
    obtain ⟨j, q, c', at_j, there, label, same⟩ := forth i p c at_i here
    obtain ⟨depicts, depicts'⟩ := face at_i here at_j there
    exact ⟨q, List.mem_of_getElem? at_j, _, _, _, _, depicts, depicts', label, same⟩
  · intro q inside
    obtain ⟨j, at_j⟩ := List.getElem?_of_mem inside
    obtain ⟨c', there, _⟩ := (forall₂_getElem? shown' j).1 q at_j
    obtain ⟨i, p, c, at_i, here, _, label, same⟩ := back j q c' at_j there
    obtain ⟨depicts, depicts'⟩ := face at_i here at_j there
    exact ⟨p, List.mem_of_getElem? at_i, _, _, _, _, depicts, depicts', label, same⟩

end Children

theorem agrees_entryNode {text text' : String} {s t s' t' : Snapshot} :
    Snapshot.Agrees h (entryNode text s t) (entryNode text' s' t') ↔
      Snapshot.Agrees h s s' ∧ Snapshot.Agrees h t t' := by
  let pair (u v : Snapshot) : List (Key × Snapshot) := [(.text "key", u), (.text "value", v)]
  have key (u v : Snapshot) : h.find? (.text "key") (pair u v) = .ok (some u) := by
    simp [find?, under?, key_text, Entries.search, pair, Key.text, isFor_texts]
  have value (u v : Snapshot) : h.find? (.text "value") (pair u v) = .ok (some v) := by
    simp [find?, under?, key_text, Entries.search, pair, Key.text, isFor_texts]
  have children : Snapshot.ChildrenAgree h (pair s t) (pair s' t') ↔
      Snapshot.Agrees h s s' ∧ Snapshot.Agrees h t t' := by
    constructor
    · intro agree
      obtain ⟨_, _, own, other, keys⟩ := agree.forth (.text "key", s) (by simp [pair])
      obtain ⟨_, _, own', other', values⟩ := agree.forth (.text "value", t) (by simp [pair])
      cases (key s t).symm.trans own
      cases (key s' t').symm.trans other
      cases (value s t).symm.trans own'
      cases (value s' t').symm.trans other'
      exact ⟨keys, values⟩
    · rintro ⟨keys, values⟩
      constructor
      · simp only [pair, List.forall_mem_cons, List.not_mem_nil, false_implies, implies_true,
          and_true]
        exact ⟨⟨s, s', key s t, key s' t', keys⟩, ⟨t, t', value s t, value s' t', values⟩⟩
      · simp only [pair, List.forall_mem_cons, List.not_mem_nil, false_implies, implies_true,
          and_true]
        exact ⟨⟨s, key s t⟩, ⟨t, value s t⟩⟩
  rw [Snapshot.agrees_iff, ← children]
  constructor
  · intro agreement
    cases agreement with
    | same whole => cases whole
    | leaf _ leaf => cases leaf
    | composite _ _ _ _ _ agree => exact agree
  · exact fun agree => .composite rfl rfl rfl rfl rfl agree

/-! ## Labels that are told apart -/

theorem sameLabel_items {m n : Nat} {v w : Value} (same : h.SameLabel (.item m v) (.item n w)) :
    m = n := by
  obtain ⟨_, _, rfl, rfl, found⟩ := same
  exact item_eq_of_isFor found

theorem sameLabel_entries {k k' x x' : Value} : h.SameLabel (.entry k x) (.entry k' x') ↔
    ∃ text, h.repr k = .ok text ∧ h.repr k' = .ok text := by
  constructor
  · rintro ⟨_, _, ⟨text, told, rfl⟩, ⟨text', told', rfl⟩, found⟩
    cases entry_eq_of_isFor found
    exact ⟨text, told, told'⟩
  · rintro ⟨text, told, told'⟩
    exact ⟨_, _, ⟨text, told, rfl⟩, ⟨text, told', rfl⟩, isFor_self _⟩

theorem partsApart_items (xs ys : List Value) :
    h.PartsApart (itemsFrom 0 xs) (itemsFrom 0 ys) := by
  have place {m n : Nat} {v w : Value} (alike : h.Alike (.item m v) (.item n w)) : m = n :=
    alike.elim sameLabel_items fun other => (sameLabel_items other).symm
  intro p member i j q q' at_i at_j one other
  obtain ⟨m, v, rfl⟩ := mem_itemsFrom member
  rw [getElem?_itemsFrom, Option.map_eq_some_iff] at at_i at_j
  obtain ⟨_, _, rfl⟩ := at_i
  obtain ⟨_, _, rfl⟩ := at_j
  have left := place one
  have right := place other
  omega

theorem partsApart_entries {ps qs : List Part} (entries : ∀ p ∈ ps, ∃ k v, p = .entry k v)
    (entries' : ∀ q ∈ qs, ∃ k v, q = .entry k v)
    (apart : ∀ (i j : Nat) k v k' v' text, qs[i]? = some (.entry k v) →
      qs[j]? = some (.entry k' v') → h.repr k = .ok text → h.repr k' = .ok text → i = j) :
    h.PartsApart ps qs := by
  have written {k v k' v' : Value} (alike : h.Alike (.entry k v) (.entry k' v')) :
      ∃ text, h.repr k = .ok text ∧ h.repr k' = .ok text := by
    rcases alike with same | same
    · exact sameLabel_entries.mp same
    · obtain ⟨text, told', told⟩ := sameLabel_entries.mp same
      exact ⟨text, told, told'⟩
  intro p member i j q q' at_i at_j one other
  obtain ⟨k, v, rfl⟩ := entries p member
  obtain ⟨k₁, v₁, rfl⟩ := entries' q (List.mem_of_getElem? at_i)
  obtain ⟨k₂, v₂, rfl⟩ := entries' q' (List.mem_of_getElem? at_j)
  obtain ⟨text, told, left⟩ := written one
  obtain ⟨text', told', right⟩ := written other
  cases told.symm.trans told'
  exact apart i j k₁ v₁ k₂ v₂ text at_i at_j left right

variable {a b x y : Value} {ps qs : List Part}

theorem HasParts.entries (members : h.HasParts x ps) (mapping : h.kind x = .mapping) :
    ∀ p ∈ ps, ∃ k v, p = .entry k v := by
  intro p inside
  have own := (members.kind_eq p inside).trans mapping
  cases p with
  | entry k v => exact ⟨k, v, rfl⟩
  | item | field => cases own

theorem HasParts.fields (members : h.HasParts x ps) (structured : h.kind x = .structured) :
    ∀ p ∈ ps, ∃ n v, p = .field n v := by
  intro p inside
  have own := (members.kind_eq p inside).trans structured
  cases p with
  | field n v => exact ⟨n, v, rfl⟩
  | item | entry => cases own

theorem partsApart_fields (names : h.NamesApart a b) (left : h.Passed a b x)
    (right : h.Passed a b y) (members : h.HasParts x ps) (members' : h.HasParts y qs)
    (structured : h.kind x = .structured) (structured' : h.kind y = .structured) :
    h.PartsApart ps qs := by
  intro p inside i j q q' at_i at_j one other
  obtain ⟨n, v, rfl⟩ := members.fields structured p inside
  obtain ⟨n₁, v₁, rfl⟩ := members'.fields structured' q (List.mem_of_getElem? at_i)
  obtain ⟨n₂, v₂, rfl⟩ := members'.fields structured' q' (List.mem_of_getElem? at_j)
  exact names y qs right members' i j n n₁ v₁ n₂ v₂ ⟨x, ps, v, left, members, inside⟩ at_i at_j
    one other

/-- No member of a value has the label of two members of another one of its kind, if this is so of
    keys that are written and of names. -/
theorem partsApart_of_kind (kinds : h.kind x = h.kind y) (members : h.HasParts x ps)
    (members' : h.HasParts y qs) (written : h.kind y = .mapping → ∀ (i j : Nat) k v k' v' text,
      qs[i]? = some (.entry k v) → qs[j]? = some (.entry k' v') → h.repr k = .ok text →
      h.repr k' = .ok text → i = j)
    (names : h.kind x = .structured → h.kind y = .structured → h.PartsApart ps qs) :
    h.PartsApart ps qs := by
  cases shape : h.shape x with
  | leaf =>
      intro p inside
      have leaf := members.kind_eq p inside
      cases p <;> simp [Heap.kind, shape, Shape.kind, Part.kind] at leaf
  | sequence c xs =>
      cases shape' : h.shape y with
      | sequence d ys =>
          rw [(hasParts_sequence shape).mp members, (hasParts_sequence shape').mp members']
          exact partsApart_items xs ys
      | leaf | mapping | structured => simp [Heap.kind, shape, shape', Shape.kind] at kinds
  | mapping c kind es =>
      have mapping : h.kind x = .mapping := by simp [Heap.kind, shape, Shape.kind]
      exact partsApart_entries (members.entries mapping) (members'.entries (kinds ▸ mapping))
        (written (kinds ▸ mapping))
  | structured c =>
      have structured : h.kind x = .structured := by simp [Heap.kind, shape, Shape.kind]
      exact names structured (kinds ▸ structured)

theorem partsApart (keys : h.KeysWrittenApart a b) (names : h.NamesApart a b)
    (left : h.Passed a b x) (right : h.Passed a b y) (kinds : h.kind x = h.kind y)
    (members : h.HasParts x ps) (members' : h.HasParts y qs) : h.PartsApart ps qs :=
  partsApart_of_kind kinds members members' (fun _ => keys y qs right members')
    (partsApart_fields names left right members members')

/-! ## Values that face each other -/

variable (h a b) in
/-- Values that walks come by, and whose snapshots give no difference. -/
def Facing (x y : Value) : Prop := h.PassesBy a x ∧ h.PassesBy b y ∧
  ∃ s t, h.Pictures x s ∧ h.Pictures y t ∧ Snapshot.Agrees h s t

/-- Members with one label that show no difference hold values that face each other. -/
theorem samePart_of_agrees {p q : Part} {k k' : Key} {s t : Snapshot} (kinds : p.kind = q.kind)
    (left : ∀ v ∈ p.values, h.PassesBy a v) (right : ∀ v ∈ q.values, h.PassesBy b v)
    (shown : h.Depicts h.Pictures p (k, s)) (shown' : h.Depicts h.Pictures q (k', t))
    (label : h.SameLabel p q) (agrees : Snapshot.Agrees h s t) :
    h.SamePart (h.Facing a b) p q := by
  cases shown with
  | item picture =>
      cases shown' with
      | item picture' =>
          obtain ⟨_, _, rfl, rfl, found⟩ := label
          cases item_eq_of_isFor found
          exact .item ⟨left _ (by simp [Part.values]), right _ (by simp [Part.values]), s, t,
            picture, picture', agrees⟩
      | field | entry => cases kinds
  | field _ picture =>
      cases shown' with
      | field _ picture' =>
          exact .field label ⟨left _ (by simp [Part.values]), right _ (by simp [Part.values]), s, t,
            picture, picture', agrees⟩
      | item | entry => cases kinds
  | entry told key value =>
      cases shown' with
      | entry told' key' value' =>
          obtain ⟨_, _, ⟨text, written, rfl⟩, ⟨text', written', rfl⟩, found⟩ := label
          cases entry_eq_of_isFor found
          obtain ⟨keys, values⟩ := agrees_entryNode.mp agrees
          exact .entry written written'
            ⟨left _ (by simp [Part.values]), right _ (by simp [Part.values]), _, _, key, key', keys⟩
            ⟨left _ (by simp [Part.values]), right _ (by simp [Part.values]), _, _, value, value',
              values⟩
      | item | field => cases kinds

/-- Values that face each other are the same up to values that do. -/
theorem Facing.step (plain : (h.classes "object").equality = .identity)
    (formed : h.FormedByClass a b) (keys : h.KeysWrittenApart a b) (names : h.NamesApart a b)
    (facing : h.Facing a b x y) : h.LabelledStep (h.Facing a b) x y := by
  obtain ⟨left, right, s, t, ⟨_, _, _, _, built⟩, ⟨_, _, _, _, built'⟩, agrees⟩ := facing
  have drawing := buildWithin_drawing built
  have drawing' := buildWithin_drawing built'
  have types (same : s.head.type = t.head.type) : h.typeOf x = h.typeOf y := by
    rwa [drawing.type, drawing'.type] at same
  cases Snapshot.agrees_iff.mp agrees with
  | same whole one =>
      -- An object has its place as its identity, so the two are one object.
      rw [drawing.identity] at whole one
      rw [drawing'.identity] at one
      obtain ⟨c, address⟩ := Option.isSome_iff_exists.mp whole
      exact .same address ((eq_ref_of_address address).trans
        (eq_ref_of_address (one ▸ address)).symm)
  | leaf same leaf leaf' equal =>
      rw [drawing.content leaf, drawing'.content leaf'] at equal
      exact .leaf (types same) (drawing.isLeaf.mp leaf) (drawing'.isLeaf.mp leaf')
        ((contentEqual_freeze plain (types same) (formed x y left right (types same))).mp equal)
  | composite same leaf leaf' met met' children =>
      have kinds := kind_eq (types same) (formed x y left right (types same))
      obtain ⟨_, _, ps, es, _, _, _, members, walked, labelled⟩ := drawing.members leaf met
      obtain ⟨_, _, qs, es', _, _, _, members', walked', labelled'⟩ := drawing'.members leaf' met'
      have apart {u v : Value} {ps qs : List Part} (left : h.Passed a b u) (right : h.Passed a b v)
          (kinds : h.kind u = h.kind v) (members : h.HasParts u ps) (members' : h.HasParts v qs) :=
        partsApart keys names left right kinds members members'
      rw [labelled_depicts walked.pictures (apart (.inl left) (.inl left) rfl members members)
        labelled, labelled_depicts walked'.pictures
        (apart (.inr right) (.inr right) rfl members' members') labelled'] at children
      obtain ⟨forth, back⟩ := agree_depicts walked.pictures walked'.pictures
        (apart (.inl left) (.inl left) rfl members members)
        (apart (.inl left) (.inr right) kinds members members') children
      have face (p q : Part) (inside : p ∈ ps) (inside' : q ∈ qs) {k k' : Key} {s t : Snapshot}
          (shown : h.Depicts h.Pictures p (k, s)) (shown' : h.Depicts h.Pictures q (k', t))
          (label : h.SameLabel p q) (agrees : Snapshot.Agrees h s t) :
          h.SamePart (h.Facing a b) p q :=
        samePart_of_agrees
          (((members.kind_eq p inside).trans kinds).trans (members'.kind_eq q inside').symm)
          (fun v holds => left.member members inside holds)
          (fun v holds => right.member members' inside' holds) shown shown' label agrees
      refine .composite (types same) kinds (fun whole => ?_) members members' ⟨?_, ?_⟩
      · rw [← drawing.isLeaf, leaf] at whole
        cases whole
      · intro p inside
        obtain ⟨q, inside', _, _, _, _, shown, shown', label, agrees⟩ := forth p inside
        exact ⟨q, inside', face p q inside inside' shown shown' label agrees⟩
      · intro q inside'
        obtain ⟨p, inside, _, _, _, _, shown, shown', label, agrees⟩ := back q inside'
        exact ⟨p, inside, face p q inside inside' shown shown' label agrees⟩

theorem HasParts.unique {ps qs : List Part} (members : h.HasParts x ps)
    (members' : h.HasParts x qs) : ps = qs :=
  map_ok_inj.mp (Except.ok.inj (members.symm.trans members'))

/-- What a walk comes by is among values that have all their members among them. -/
theorem PassesBy.among {values : List Value} (start : a ∈ values)
    (closed : ∀ u ∈ values, ∃ ps, h.HasParts u ps ∧ ∀ p ∈ ps, ∀ v ∈ p.values, v ∈ values)
    (passes : h.PassesBy a x) : x ∈ values := by
  induction passes with
  | self => exact start
  | member _ members present inside ih =>
      obtain ⟨ps, members', among⟩ := closed _ ih
      rw [members.unique members'] at present
      exact among _ present _ inside

/-- Two objects that list points as the names of their fields.  The second point of either has been
    made the same as the first since it was entered. -/
def lostNames : Heap where
  classes := Standard.classes Sample.classes
  objects :=
    let point (x : Value) : Object :=
      { cls := "FrozenPoint", attrs := [("x", x), ("y", .int 2)] }
    let key (a : Address) (x : Int) : Key := ⟨.ref a, .ofTuple [.ofInt x, .ofInt 2]⟩
    let pairs (entries : List (Key × Value)) : Object :=
      { cls := "dict", body := .mapping .dict entries }
    #[point (.int 1), point (.bool true), point (.int 1), point (.bool true),
      pairs [(key 0 1, .int 1), (key 1 3, .int 2)], pairs [(key 2 1, .int 5), (key 3 3, .int 2)],
      { cls := "Pairs", attrs := [("pairs", .ref 4)] },
      { cls := "Pairs", attrs := [("pairs", .ref 5)] }]

def lostNamesValues : List Value := [.ref 6, .ref 7, .int 1, .int 2, .int 5]

theorem lostNames_among {u : Value} (passed : lostNames.Passed (.ref 6) (.ref 7) u) :
    u ∈ lostNamesValues := by
  have closed : ∀ u ∈ lostNamesValues, ∃ ps, lostNames.HasParts u ps ∧
      ∀ p ∈ ps, ∀ v ∈ p.values, v ∈ lostNamesValues := by
    simp only [lostNamesValues, List.forall_mem_cons, List.not_mem_nil, false_implies, implies_true,
      and_true]
    exact ⟨⟨[.field (.ref 0) (.int 1), .field (.ref 1) (.int 2)], rfl, by simp [Part.values]⟩,
      ⟨[.field (.ref 2) (.int 5), .field (.ref 3) (.int 2)], rfl, by simp [Part.values]⟩,
      ⟨[], rfl, by simp⟩, ⟨[], rfl, by simp⟩, ⟨[], rfl, by simp⟩⟩
  rcases passed with left | right
  · exact left.among (by simp [lostNamesValues]) closed
  · exact right.among (by simp [lostNamesValues]) closed

end Assay.Heap
