import Assay.Proofs.Facet.Isolation
import Assay.Proofs.Heap.Alteration
import Assay.Proofs.Renaming.Reading
import Assay.Proofs.Snapshot.Members

/-! # How long snapshots last

A snapshot is read and compared as it was taken, whatever is made and changed afterwards, as long as
the objects that its leaves and labels hold are left alone.  Composites may change, as a snapshot
keeps their members and no more of themselves than an identity; so may sets and byte arrays, of
which it keeps a copy.  But the members of a set are not copied, and neither are objects without
fields or the names of fields.
-/

namespace Assay

open Snapshot

/-- What is made from now on takes the place of what would have been made before, and what lies in a
    place stays where it is. -/
def Heap.since (place : Set Address) (h h' : Heap) : Shift where
  start := h.objects.size
  kept := place
  gap := h'.objects.size - h.objects.size

/-- A place on a heap that refers to nothing outside of it, with whatever classes refer to. -/
structure Heap.Secludes (h : Heap) (common : Reach) (place : Set Address) : Prop where
  fair : Fair common h.classes
  root : h.PlainRoot
  shared : common.addresses ⊆ place
  live : ∀ a ∈ place, a < h.objects.size
  closed : ∀ a ∈ place, (h.object a).Renamed (.fixing place) (h.object a)

/-- A snapshot is read on a later heap as on an earlier one, and compares in the same way with others
    that keep nothing outside of a place. -/
structure Snapshot.Lasts (place : Set Address) (h h' : Heap) (s : Snapshot) : Prop where
  paths : ∀ n ∈ s.walk [], ∀ label ∈ n.1, h'.display label = h.display label
  summaries : ∀ n ∈ s.walk [], n.2.summary h' = n.2.summary h
  report : s.report h' = s.report h
  absent : s.diff h' none = s.diff h none
  expected : ∀ t : Snapshot, t.KeptIn place →
    Noted.Alike (h.since place h').Moves Eq (s.diff h (some t)) (s.diff h' (some t))
  actual : ∀ t : Snapshot, t.KeptIn place →
    Noted.Alike (h.since place h').Moves Eq (t.diff h (some s)) (t.diff h' (some s))

variable {common : Reach} {place : Set Address} {h h' : Heap} {s t : Snapshot}

/-- What the leaves of a value hold, and the names of its fields, lies in a place. -/
structure Heap.HeldIn (h : Heap) (place : Set Address) (v : Value) : Prop where
  leaves : ∀ u, h.PassesBy v u → h.isLeaf u → (h.freeze u).Renamed (.fixing place) (h.freeze u)
  names : ∀ u ps n x key, h.PassesBy v u → h.HasParts u ps → .field n x ∈ ps →
    h.key n = .ok key → key.Renamed (.fixing place) key

/-! ## Twins -/

theorem Renaming.fixing_ordered (place : Set Address) : (Renaming.fixing place).Ordered :=
  ⟨fun left right => by rw [left.2, right.2]⟩

namespace Heap

theorem Secludes.fixed (secludes : h.Secludes common place) (spares : Spares place h h') :
    h.Twin (.fixing place) h' := by
  have objects (a a' : Address) (here : Renaming.fixing place a a') :
      (h.object a).Renamed (.fixing place) (h'.object a') := by
    obtain ⟨inside, rfl⟩ := here
    rw [spares.objects a' inside]
    exact secludes.closed a' inside
  exact
    { ordered := Renaming.fixing_ordered place
      classes := spares.classes
      size := spares.size
      objects := objects _ _
      impartial := secludes.fair _ (Renaming.fixing_ordered place)
        (fun a inside => ⟨secludes.shared inside, rfl⟩) _ _ objects
      root := secludes.root }

theorem Secludes.moves (secludes : h.Secludes common place) (a a' : Address)
    (here : Renaming.fixing place a a') : (h.since place h').Moves a a' :=
  .inl ⟨secludes.live a here.1, here⟩

theorem Spares.fresh (spares : Spares place h h') (n : Nat) :
    (h.since place h').Moves (h.objects.size + n) (h'.objects.size + n) := by
  refine .inr ⟨Nat.le_add_right _ _, ?_⟩
  have grown := spares.size
  simp only [since]
  omega

theorem Secludes.moved (secludes : h.Secludes common place) (spares : Spares place h h') :
    h.Twin (h.since place h').Moves h' := by
  have objects (a a' : Address) (here : (h.since place h').Moves a a') :
      (h.object a).Renamed (h.since place h').Moves (h'.object a') := by
    rcases here with ⟨_, inside, rfl⟩ | ⟨new, rfl⟩
    · rw [spares.objects a' inside]
      exact (secludes.closed a' inside).mono secludes.moves
    · have grown := spares.size
      have new' : h'.objects.size ≤ a + (h.since place h').gap := by
        simp only [since] at new ⊢
        omega
      rw [object_absent new, object_absent new']
      exact Object.renamed_blank _
  exact
    { ordered := (h.since place h').ordered
      classes := spares.classes
      size := spares.size
      objects := objects _ _
      impartial := secludes.fair _ (h.since place h').ordered
        (fun a inside => secludes.moves a a ⟨secludes.shared inside, rfl⟩) _ _ objects
      root := secludes.root }

end Heap

/-! ## Readings -/

theorem Snapshot.KeptIn.nodes (kept : s.KeptIn place) {path : List Value}
    (before : ∀ label ∈ path, label.Renamed (.fixing place) label) :
    ∀ n ∈ s.walk path, n.2.KeptIn place ∧ ∀ label ∈ n.1, label.Renamed (.fixing place) label := by
  induction kept generalizing path with
  | @node head children label content keys inner ih =>
      intro n inside
      rcases mem_walk.mp inside with rfl | ⟨e, child, below⟩
      · exact ⟨.node label content keys inner, before⟩
      · refine ih e child (fun label present => ?_) n below
        rcases List.mem_append.mp present with old | new
        · exact before label old
        · exact List.mem_singleton.mp new ▸ (keys e child).value

namespace Heap

theorem HeldIn.member {v x : Value} {ps : List Part} {p : Part} (held : h.HeldIn place v)
    (members : h.HasParts v ps) (inside : p ∈ ps) (holds : x ∈ p.values) : h.HeldIn place x := by
  have passing {u : Value} (passes : h.PassesBy x u) : h.PassesBy v u :=
    (PassesBy.self.member members inside holds).trans passes
  exact ⟨fun u passes => held.leaves u (passing passes),
    fun u ps n y key passes => held.names u ps n y key (passing passes)⟩

theorem HeldIn.keptIn {budget : Nat} {seen last : List Address} {label v : Value}
    (held : h.HeldIn place v) (lies : label.Renamed (.fixing place) label)
    (built : h.buildWithin budget seen label v = (last, .ok s)) : s.KeptIn place := by
  induction budget generalizing seen last label v s with
  | zero => cases built
  | succ budget ih =>
      have empty : (Captured.value .null).Renamed (.fixing place) (.value .null) :=
        .value (.datum rfl)
      cases buildWithin_drawing built with
      | leaf address =>
          exact .node lies (held.leaves v .self (isLeaf_iff.mpr address)) (List.forall_mem_nil _)
            (List.forall_mem_nil _)
      | again => exact .node lies empty (List.forall_mem_nil _) (List.forall_mem_nil _)
      | @whole _ _ _ _ a ps shown _ children _ _ members walked labelled =>
          have each : ∀ e ∈ shown, e.1.Renamed (.fixing place) e.1 ∧ e.2.KeptIn place := by
            intro e inside
            obtain ⟨p, present, _, _, shows⟩ := walked.shown e inside
            have inner {x : Value} (holds : x ∈ p.values) : h.HeldIn place x :=
              held.member members present holds
            cases shows with
            | item below =>
                exact ⟨Key.renamed_plain rfl, ih (inner (by simp [Part.values])) (.datum rfl) below⟩
            | @field n _ _ _ key below named =>
                have lies := held.names v ps n _ key .self members present named
                exact ⟨lies, ih (inner (by simp [Part.values])) (key_value named ▸ lies.value) below⟩
            | entry _ below below' =>
                have key := ih (inner (by simp [Part.values])) (.datum rfl) below
                have value := ih (inner (by simp [Part.values])) (.datum rfl) below'
                refine ⟨Key.renamed_plain rfl, .node (.datum rfl) empty ?_ ?_⟩
                · exact List.forall_mem_cons.mpr ⟨Key.renamed_text _,
                    List.forall_mem_singleton.mpr (Key.renamed_text _)⟩
                · exact List.forall_mem_cons.mpr ⟨key, List.forall_mem_singleton.mpr value⟩
          have kept := labelled_forall (A := fun key => key.Renamed (.fixing place) key)
            (B := KeptIn place) labelled each
          exact .node lies empty (fun e inside => (kept e inside).1) fun e inside => (kept e inside).2

end Heap

theorem Snapshot.KeptIn.lasts (secludes : h.Secludes common place)
    (altered : Heap.Altered place h h') (kept : s.KeptIn place) : s.Lasts place h h' := by
  have spares := altered.spares secludes.live
  have fixed := secludes.fixed spares
  have moved := secludes.moved spares
  have contents (c d : Captured) (left : c.Renamed (.fixing place) c)
      (right : d.Renamed (.fixing place) d) :
      Results (h.since place h').Moves False Eq (h.contentEqual c d) (h'.contentEqual c d) :=
    moved.contentEqual secludes.fair
      (fun a inside => secludes.moves a a ⟨secludes.shared inside, rfl⟩) spares.fresh
      (left.mono secludes.moves) (right.mono secludes.moves)
  have nodes := kept.nodes (List.forall_mem_nil _)
  exact
    { paths := fun n inside label present =>
        (fixed.display ((nodes n inside).2 label present)).eq_of_fixing
      summaries := fun n inside => (summary_same fixed (nodes n inside).1).eq_of_fixing
      report := (report_same fixed kept).eq_of_fixing
      absent := by simp only [diff, (summary_same fixed kept).eq_of_fixing]
      expected := fun t other => compare_same fixed secludes.moves contents kept other
      actual := fun t other => compare_same fixed secludes.moves contents other kept }

namespace Heap

/-- Whatever is made, and whatever is changed that the leaves and the names of fields do not hold: a
    snapshot lasts as it was taken. -/
theorem snapshot_lasts {v : Value} (secludes : h.Secludes common place) (held : h.HeldIn place v)
    (taken : h.snapshot v = .ok s) (altered : Altered place h h') : s.Lasts place h h' :=
  (held.keptIn (.datum rfl) (Prod.ext rfl taken : h.buildSnapshot [] .null v = (_, .ok s))).lasts
    secludes altered

/-- A list that holds a set and a number. -/
def basket : Heap where
  classes := Standard.classes []
  objects := #[{ cls := "set", body := .members false [.plain (.int 1)] },
    { cls := "list", body := .sequence .list [.ref 0, .int 5] }]

theorem basket_secludes : basket.Secludes ⟨∅, ∅⟩ ∅ where
  fair := Standard.fair_classes fun _ inside => absurd inside List.not_mem_nil
  root := ⟨rfl, rfl, rfl, rfl⟩
  shared := fun _ inside => inside
  live a inside := absurd inside (Set.notMem_empty a)
  closed a inside := absurd inside (Set.notMem_empty a)

theorem basket_held : basket.HeldIn ∅ (.ref 1) := by
  have among {u : Value} (passes : basket.PassesBy (.ref 1) u) :
      u ∈ [Value.ref 1, .ref 0, .int 5] := by
    refine passes.among (by simp) ?_
    simp only [List.forall_mem_cons, List.not_mem_nil, false_implies, implies_true, and_true]
    exact ⟨⟨[.item 0 (.ref 0), .item 1 (.int 5)], rfl, by simp [Part.values]⟩, ⟨[], rfl, by simp⟩,
      ⟨[], rfl, by simp⟩⟩
  constructor
  · intro u passes leaf
    rcases (by simpa using among passes : u = .ref 1 ∨ u = .ref 0 ∨ u = .int 5)
      with rfl | rfl | rfl
    · cases leaf
    · exact .members (.cons (Key.renamed_plain rfl) .nil)
    · exact .value (.datum rfl)
  · intro u ps n x key passes members inside
    have structured : basket.kind u = .structured := (members.kind_eq _ inside).symm
    rcases (by simpa using among passes : u = .ref 1 ∨ u = .ref 0 ∨ u = .int 5)
      with rfl | rfl | rfl <;> cases structured

/-- The list and the set in it may be changed. -/
theorem snapshot_lasts_basket : ∃ s h', basket.Secludes ⟨∅, ∅⟩ ∅ ∧ basket.HeldIn ∅ (.ref 1) ∧
    basket.snapshot (.ref 1) = .ok s ∧ Altered ∅ basket h' ∧
    (basket.object 0).body ≠ (h'.object 0).body ∧ s.Lasts ∅ basket h' := by
  have apart (v : Value) : ∀ a ∈ (∅ : Set Address), v ≠ .ref a :=
    fun a inside => absurd inside (Set.notMem_empty a)
  have altered : Altered ∅ basket _ :=
    .changed (c := .append (.int 7)) (.changed (c := .add (.int 2)) .same (apart (.ref 0)) rfl)
      (apart (.ref 1)) rfl
  exact ⟨_, _, basket_secludes, basket_held, rfl, altered, by decide +kernel,
    snapshot_lasts basket_secludes basket_held rfl altered⟩

/-- A set of a point. -/
def pointed : Heap where
  classes := Standard.classes Sample.classes
  objects := #[{ cls := "FrozenPoint", attrs := [("x", .int 1), ("y", .int 2)] },
    { cls := "set", body := .members false [⟨.ref 0, .ofTuple [.ofInt 1, .ofInt 2]⟩] }]

/-- A change of an object in a set that has been copied is seen in the snapshot. -/
theorem snapshot_shows_change : ¬ ∀ (h h' : Heap) (v target : Value) (c : Change Value)
    (s : Snapshot), h.snapshot v = .ok s → h.change target c = .ok h' →
    s.summary h' = s.summary h := by
  intro claim
  have same := claim pointed _ (.ref 1) (.ref 0) (.setAttribute (.text "x") (.int 5)) _ rfl rfl
  revert same
  decide +kernel

end Heap

end Assay
