import Assay.Proofs.Snapshot.Paired
import Assay.Proofs.Snapshot.Told

/-! # What becomes of members

Every node of a snapshot shows a value that the walk comes by, or it holds the key and the value of
an entry.  A composite that is shown as a whole has one child for each of its members, in their
order, as long as no member is shown under the label of an earlier one.  Items of sequences never
are; entries of a mapping are if their keys are written alike, and fields if they have one name.
The later member then stands in the place of the earlier one.
-/

namespace Assay

namespace Snapshot

theorem walkAll_eq (path : List Value) (es : List (Key × Snapshot)) :
    walkAll path es = es.flatMap fun e => e.2.walk (path ++ [e.1.value]) := by
  induction es with
  | nil => simp only [walkAll, List.flatMap_nil]
  | cons e rest ih => simp only [walkAll, ih, List.flatMap_cons]

theorem walk_eq (path : List Value) (s : Snapshot) : s.walk path =
    (path, s) :: s.children.flatMap fun e => e.2.walk (path ++ [e.1.value]) := by
  cases s
  rw [walk, walkAll_eq, children]

theorem mem_walk {path : List Value} {s : Snapshot} {n : List Value × Snapshot} :
    n ∈ s.walk path ↔ n = (path, s) ∨ ∃ e ∈ s.children, n ∈ e.2.walk (path ++ [e.1.value]) := by
  rw [walk_eq, List.mem_cons, List.mem_flatMap]

end Snapshot

namespace Heap

variable (h : Heap)

/-- No member is shown under the label of an earlier one. -/
def LabelsDiffer (ps : List Part) : Prop := ps.Pairwise fun p p' => ¬ h.SameLabel p' p

/-- A node of the snapshot of a value. -/
inductive Node (v : Value) : Snapshot → Prop where
  | value {u s} : h.PassesBy v u → h.Pictures u s → Node v s
  | entry {u ps k x text s t} : h.PassesBy v u → h.HasParts u ps → .entry k x ∈ ps →
      h.repr k = .ok text → h.Pictures k s → h.Pictures x t → Node v (entryNode text s t)

/-- There is one child for each member, in the members' order. -/
def ShowsAll (ps : List Part) (children : List (Key × Snapshot)) : Prop :=
  List.Forall₂ (h.Depicts h.Pictures) ps children

/-- Children show nothing but members, and all of these under one condition. -/
structure Keeps (ps : List Part) (children : List (Key × Snapshot)) (apart : Prop) : Prop where
  only : ∀ e ∈ children, ∃ p ∈ ps, ∃ key, h.Depicts h.Pictures p (key, e.2)
  fewer : children.length ≤ ps.length
  all : h.ShowsAll ps children ↔ apart

/-- What children show of a composite. -/
inductive ShowsMembers (c : Address) (children : List (Key × Snapshot)) : Prop where
  | sequence {items} : h.shape (.ref c) = .sequence c items →
      h.ShowsAll (itemsFrom 0 items) children → ShowsMembers c children
  /-- Keys must be written differently. -/
  | mapping {kind es} {items : List (Value × Value)} : h.shape (.ref c) = .mapping c kind es →
      h.walkEntries kind es = items.map .ok →
      h.Keeps (items.map fun e => .entry e.1 e.2) children
        (items.Pairwise fun e e' => h.repr e.1 ≠ h.repr e'.1) → ShowsMembers c children
  /-- Shared fields come first, and no name must be that of an earlier field. -/
  | structured {shared own} : h.shape (.ref c) = .structured c → h.sharedFields c = .ok shared →
      h.fields c = .ok own →
      h.Keeps ((shared ++ own).map fun e => .field e.1.value e.2) children
        ((shared ++ own).Pairwise fun e e' => ¬ h.SameName e'.1.value e.1.value) →
      ShowsMembers c children

variable {h} {v u : Value} {ps : List Part} {built children : List (Key × Snapshot)}
  {P : Value → Snapshot → Prop}

/-! ## Labels that differ -/

theorem itemsFrom_index {start : Nat} {items : List Value} {i : Nat} {x : Value}
    (inside : .item i x ∈ itemsFrom start items) : start ≤ i := by
  obtain ⟨j, there⟩ := List.getElem?_of_mem inside
  rw [getElem?_itemsFrom, Option.map_eq_some_iff] at there
  obtain ⟨_, _, same⟩ := there
  cases same
  omega

theorem labelsDiffer_items (start : Nat) (items : List Value) :
    h.LabelsDiffer (itemsFrom start items) := by
  induction items generalizing start with
  | nil => exact .nil
  | cons x rest ih =>
      refine .cons (fun p inside => ?_) (ih (start + 1))
      obtain ⟨i, y, rfl⟩ := mem_itemsFrom inside
      intro same
      have above := itemsFrom_index inside
      have same := sameLabel_items same
      omega

theorem labelsDiffer_entries {items : List (Value × Value)}
    (told : ∀ e ∈ items, ∃ text, h.repr e.1 = .ok text) :
    h.LabelsDiffer (items.map fun e => .entry e.1 e.2) ↔
      items.Pairwise fun e e' => h.repr e.1 ≠ h.repr e'.1 := by
  unfold LabelsDiffer
  rw [List.pairwise_map]
  refine List.Pairwise.iff_of_mem fun {e e'} inside _ => not_congr ?_
  rw [sameLabel_entries]
  obtain ⟨text, written⟩ := told e inside
  constructor
  · rintro ⟨text', written', same⟩
    rw [written', same]
  · exact fun same => ⟨text, same ▸ written, written⟩

theorem labelsDiffer_fields {fields : List (Key × Value)} :
    h.LabelsDiffer (fields.map fun e => .field e.1.value e.2) ↔
      fields.Pairwise fun e e' => ¬ h.SameName e'.1.value e.1.value := by
  unfold LabelsDiffer
  rw [List.pairwise_map]
  rfl

/-! ## Children that are kept -/

theorem enter_length {κ ν ε : Type} {isKey : κ → Except ε Bool} {key : κ} {x : ν}
    {es es' : List (κ × ν)} (entered : Entries.enter isKey key x es = .ok es') :
    es'.length ≤ es.length + 1 ∧
      (es'.length = es.length + 1 → ∀ e ∈ es, isKey e.1 ≠ .ok true) := by
  rcases enter_cases entered with ⟨before, k, y, after, rfl, _, rfl⟩ | ⟨apart, rfl⟩
  · simp
  · refine ⟨by simp, fun _ e inside => ?_⟩
    simp [apart e inside]

/-- Children are as many as have been built only if each was entered under a label of its own. -/
theorem labelled_length (labelled : h.labelled built = .ok children) :
    children.length ≤ built.length ∧ (children.length = built.length →
      built.Pairwise fun e e' => e'.1.isFor h.equal e.1 ≠ .ok true) := by
  have entered := labelled_invariant (P := fun kept later =>
    kept.length + later.length ≤ built.length ∧ (kept.length + later.length = built.length →
      ∃ before, built = before ++ later ∧ kept = before ∧
        before.Pairwise fun e e' => e'.1.isFor h.equal e.1 ≠ .ok true)) labelled
    ⟨by simp, fun _ => ⟨[], by simp⟩⟩ fun kept kept' e rest before entered => by
      obtain ⟨fewer, apart⟩ := enter_length entered
      refine ⟨by have := before.1; simp at this; omega, fun full => ?_⟩
      simp only [List.length_cons] at before
      obtain ⟨_, whole, rfl, different⟩ := before.2 (by omega)
      have new := apart (by omega)
      refine ⟨kept ++ [e], by simp [whole], enter_append entered new, ?_⟩
      exact List.pairwise_append.mpr ⟨different, List.pairwise_singleton _ _, fun e₀ old e' here =>
        List.mem_singleton.mp here ▸ new e₀ old⟩
  refine ⟨by simpa using entered.1, fun full => ?_⟩
  obtain ⟨before, whole, _, apart⟩ := entered.2 (by simpa using full)
  rwa [whole, List.append_nil]

theorem labelsDiffer_iff (shown : List.Forall₂ (h.Depicts P) ps built) : h.LabelsDiffer ps ↔
    built.Pairwise fun e e' => e'.1.isFor h.equal e.1 ≠ .ok true := by
  unfold LabelsDiffer
  induction shown with
  | nil => exact iff_of_true .nil .nil
  | cons depicts shown ih =>
      rw [List.pairwise_cons, List.pairwise_cons, ih]
      refine and_congr_left fun _ => ?_
      constructor
      · intro apart e' inside found
        obtain ⟨p', inside', depicts'⟩ := (forall₂_mem shown).2 e' inside
        exact apart p' inside' ⟨_, _, depicts'.labels, depicts.labels, found⟩
      · rintro apart p' inside ⟨key', key, labels', labels, found⟩
        obtain ⟨e', inside', depicts'⟩ := (forall₂_mem shown).1 p' inside
        cases labels'.unique depicts'.labels
        cases labels.unique depicts.labels
        exact apart e' inside' found

theorem labelled_only (shown : List.Forall₂ (h.Depicts P) ps built)
    (labelled : h.labelled built = .ok children) :
    ∀ e ∈ children, ∃ p ∈ ps, ∃ key, h.Depicts P p (key, e.2) := by
  have among := labelled_forall (A := fun _ => True)
    (B := fun s => ∃ p ∈ ps, ∃ key, h.Depicts P p (key, s)) labelled fun e present => by
      obtain ⟨p, member, depicts⟩ := (forall₂_mem shown).2 e present
      exact ⟨trivial, p, member, e.1, depicts⟩
  exact fun e inside => (among e inside).2

/-- Of members that have been built, all are kept exactly if their labels differ. -/
theorem labelled_keeps (shown : h.ShowsAll ps built) (labelled : h.labelled built = .ok children) :
    h.Keeps ps children (h.LabelsDiffer ps) where
  only := labelled_only shown labelled
  fewer := shown.length_eq ▸ (labelled_length labelled).1
  all := by
    rw [labelsDiffer_iff shown]
    constructor
    · exact fun all => (labelled_length labelled).2 (all.length_eq.symm.trans shown.length_eq)
    · exact fun apart => labelled_eq labelled apart ▸ shown

theorem Keeps.congr {apart apart' : Prop} (keeps : h.Keeps ps children apart)
    (same : apart ↔ apart') : h.Keeps ps children apart' :=
  { keeps with all := keeps.all.trans same }

/-! ## Nodes -/

theorem PicturesWithin.node {budget : Nat} {s : Snapshot} (shown : h.PicturesWithin budget u s)
    (passes : h.PassesBy v u) (path : List Value) : ∀ n ∈ s.walk path, h.Node v n.2 := by
  induction budget generalizing u s path with
  | zero =>
      obtain ⟨_, _, _, built⟩ := shown
      cases built
  | succ budget ih =>
      intro n inside
      rcases Snapshot.mem_walk.mp inside with rfl | ⟨e, child, below⟩
      · exact .value passes shown.pictures
      obtain ⟨seen, label, last, built⟩ := shown
      cases buildWithin_drawing built with
      | leaf | again => cases child
      | whole _ _ members walked labelled =>
          obtain ⟨p, member, key, depicts⟩ := labelled_only walked.picturesWithin labelled e child
          have passing {x : Value} (holds : x ∈ p.values) : h.PassesBy v x :=
            passes.member members member holds
          obtain ⟨_, t⟩ := e
          cases depicts with
          | item picture | field _ picture =>
              exact ih picture (passing (by simp [Part.values])) _ n below
          | @entry k x _ keyNode valueNode told key value =>
              rcases Snapshot.mem_walk.mp below with rfl | ⟨e, inner, below⟩
              · exact .entry passes members member told key.pictures value.pictures
              · rcases (show e = _ ∨ e = _ by simpa [entryNode, Snapshot.children] using inner)
                  with rfl | rfl
                · exact ih key (passing (by simp [Part.values])) _ n below
                · exact ih value (passing (by simp [Part.values])) _ n below

/-- Every node of a snapshot shows a value that the walk comes by, or an entry. -/
theorem snapshot_nodes {seen last : List Address} {label : Value} {s : Snapshot}
    (taken : h.buildSnapshot seen label v = (last, .ok s)) (path : List Value) :
    ∀ n ∈ s.walk path, h.Node v n.2 :=
  PicturesWithin.node ⟨seen, label, last, taken⟩ .self path

/-! ## Members of a composite -/

theorem map_ok_cases {α β : Type} {f : α → β} {walk : Walk α} {ys : List β}
    (all : walk.map (·.map f) = ys.map .ok) : ∃ xs : List α, walk = xs.map .ok ∧ ys = xs.map f := by
  induction walk generalizing ys with
  | nil => exact ⟨[], rfl, List.map_eq_nil_iff.mp all.symm⟩
  | cons x rest ih =>
      cases ys with
      | nil => cases all
      | cons y ys =>
          simp only [List.map_cons, List.cons.injEq] at all
          obtain ⟨xs, rfl, rfl⟩ := ih all.2
          cases x with
          | error f => cases all.1
          | ok x =>
              cases all.1
              exact ⟨x :: xs, rfl, rfl⟩

theorem showsMembers {c : Address} (address : (h.shape u).address? = some c)
    (members : h.HasParts u ps) (shown : h.ShowsAll ps built)
    (labelled : h.labelled built = .ok children) : h.ShowsMembers c children := by
  cases eq_ref_of_address address
  have keeps := labelled_keeps shown labelled
  cases shape : h.shape (.ref c) with
  | leaf => simp [shape, Shape.address?] at address
  | sequence a items =>
      cases Option.some.inj ((congrArg Shape.address? shape).symm.trans address)
      cases (hasParts_sequence shape).mp members
      exact .sequence shape (keeps.all.mpr (labelsDiffer_items 0 items))
  | mapping a kind es =>
      cases Option.some.inj ((congrArg Shape.address? shape).symm.trans address)
      obtain ⟨items, walk, rfl⟩ := map_ok_cases ((hasParts_mapping shape).mp members)
      refine .mapping shape walk (keeps.congr (labelsDiffer_entries fun e inside => ?_))
      obtain ⟨_, _, depicts⟩ := (forall₂_mem shown).1 _ (List.mem_map_of_mem inside)
      cases depicts with
      | entry told => exact ⟨_, told⟩
  | structured a =>
      cases Option.some.inj ((congrArg Shape.address? shape).symm.trans address)
      obtain ⟨shared, own, told, told', rfl⟩ := (hasParts_structured shape).mp members
      exact .structured shape told told' (keeps.congr labelsDiffer_fields)

/-- What a snapshot shows as a whole, it shows with its members: each item of a sequence, each entry
    of a mapping if the keys are written differently, each field if the names differ. -/
theorem snapshot_showsMembers {seen last : List Address} {label : Value} {s : Snapshot}
    {n : List Value × Snapshot} {c : Address}
    (taken : h.buildSnapshot seen label v = (last, .ok s)) (inside : n ∈ s.walk [])
    (composite : n.2.head.identity = some c) (whole : n.2.head.alreadyReferenced = false) :
    h.ShowsMembers c n.2.children := by
  obtain ⟨path, n⟩ := n
  cases snapshot_nodes taken [] _ inside with
  | entry => cases composite
  | value _ pictures =>
      obtain ⟨_, _, _, _, built⟩ := pictures
      cases buildWithin_drawing built with
      | leaf => cases composite
      | again => cases whole
      | whole address _ members walked labelled =>
          cases composite
          exact showsMembers address members walked.pictures labelled

/-- A mapping with two keys that are written alike. -/
def tokens : Heap where
  classes := Standard.classes Sample.classes
  objects := #[{ cls := "Token" }, { cls := "Token" },
    { cls := "dict", body := .mapping .dict [(.plain (.ref 0), .int 1), (.plain (.ref 1), .int 2)] }]

/-- What a snapshot shows under the label of the two keys. -/
def tokensEntry : Snapshot :=
  let leaf (label v : Value) (type : ClassName) : Snapshot :=
    .node { label, type, isLeaf := true, content := .value v } []
  entryNode "<Token>" (leaf (.text "key") (.ref 1) "Token") (leaf (.text "value") (.int 2) "int")

theorem tokens_snapshot : tokens.snapshot (.ref 2) = .ok
    (.node { type := "dict", isLeaf := false, identity := some 2 }
      [(.plain (entryLabel "<Token>"), tokensEntry)]) := rfl

theorem snapshot_showsMembers_tokens : ∃ seen s, tokens.buildSnapshot [] .null (.ref 2) =
      (seen, .ok s) ∧ ([], s) ∈ s.walk [] ∧ s.head.identity = some 2 ∧
      s.head.alreadyReferenced = false ∧ tokens.ShowsMembers 2 s.children :=
  ⟨_, _, Prod.ext rfl tokens_snapshot, Snapshot.mem_walk.mpr (.inl rfl), rfl, rfl,
    snapshot_showsMembers (Prod.ext rfl tokens_snapshot) (Snapshot.mem_walk.mpr (.inl rfl)) rfl rfl⟩

/-- Of two entries whose keys are written alike the first is lost. -/
theorem snapshot_misses_entry : ¬ ∀ (h : Heap) (v : Value) (s : Snapshot) (ps : List Part),
    h.snapshot v = .ok s → h.HasParts v ps → h.ShowsAll ps s.children := by
  intro claim
  have members : tokens.HasParts (.ref 2) [.entry (.ref 0) (.int 1), .entry (.ref 1) (.int 2)] :=
    rfl
  have lengths := (claim tokens (.ref 2) _ _ tokens_snapshot members).length_eq
  cases lengths

end Heap

end Assay
