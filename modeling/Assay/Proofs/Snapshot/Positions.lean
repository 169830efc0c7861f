import Assay.Heap.Change
import Assay.Proofs.Snapshot.Compared

/-! # Differences of snapshots

Two snapshots may have been taken at different times, and compared later still.  The difference
lists exactly the positions at which they differ, if the labels they use have not been changed since
they were taken: a label that is filed elsewhere now leads to no child, or to that of another label.
-/

namespace Assay

namespace Snapshot

variable (h : Heap)

/-- The difference of two trees lists where they differ, each position once and in the order of the
    labels, and shows nothing else. -/
structure Reports (s t : Snapshot) (r : Option Snapshot) : Prop extends
    Lists (Mismatch h s t) (Before h s t) r where
  once : ((leaves r).map (·.1)).Nodup
  nothing : r = none ↔ ∀ p x y, ¬ Mismatch h s t p x y

variable {h} {s t n : Snapshot}

/-- The order of paths is strict. -/
theorem Before.ne {p q : List Value} (before : Before h s t p q) (comparable : Comparable h s t) :
    p ≠ q := by
  induction before with
  | here order =>
      have apart := List.pairwise_map.mp
        (values_nodup comparable.order_current comparable.order_apart)
      exact fun same => List.pairwise_iff_forall_sublist.mp apart order (List.cons.inj same).1
  | under inside found _ ih =>
      have current := (comparable.kept _ (.inl .self)).current _ inside
      obtain ⟨e', inside', rfl⟩ := find?_some current found
      exact fun same => ih (comparable.under inside inside') (List.cons.inj same).2

/-- Labels that are texts are kept on every heap. -/
theorem LabelsKept.of_texts {h' : Heap} (kept : LabelsKept h s)
    (texts : ∀ e ∈ s.children, ∃ text, e.1 = .text text) : LabelsKept h' s where
  current e inside := by
    obtain ⟨text, same⟩ := texts e inside
    rw [same]
    exact Heap.key_text text
  apart := kept.apart.imp_of_mem fun {e e'} inside inside' apart same => by
    obtain ⟨text, here⟩ := texts e inside
    obtain ⟨text', there⟩ := texts e' inside'
    rw [here, there, Key.text, Key.text, Heap.isFor_texts] at same apart
    exact apart same

theorem Lists.reports (comparable : Comparable h s t) {r : Option Snapshot}
    (lists : Lists (Mismatch h s t) (Before h s t) r) : Reports h s t r where
  toLists := lists
  once := List.pairwise_map.mpr (lists.ordered.imp fun before => before.ne comparable)
  nothing := by
    constructor
    · rintro rfl p x y mismatch
      simpa [leaves] using (lists.exact p x y).mpr mismatch
    · intro nowhere
      cases r with
      | none => rfl
      | some d =>
          obtain ⟨⟨p, x, y⟩, inside⟩ :=
            List.exists_mem_of_ne_nil _ (lists.telling d rfl).leafDifferences
          exact absurd ((lists.exact p x y).mp inside) (nowhere p x y)

end Snapshot

namespace Heap

/-- Values of the class of entries are entries. -/
def EntriesFormed (h : Heap) (v : Value) : Prop := ∀ u, h.PassesBy v u →
  h.typeOf u = entryClass → h.IsEntry u

variable {h h₁ h₂ : Heap} {u v w : Value} {n s t : Snapshot}

/-! ## Nodes as they are made -/

theorem freeze_captured (label : Value) (type : ClassName) :
    (Snapshot.node { label, type, isLeaf := true, content := h.freeze u } []).difference? =
      none := by
  unfold Snapshot.difference? freeze
  cases u with
  | ref a => cases body : (h.object a).body <;> simp [Snapshot.head, body]
  | _ => rfl

theorem Node.made (formed : h.EntriesFormed v) (node : h.Node v n) : n.Made := by
  cases node with
  | entry => exact ⟨rfl, nofun, nofun, fun _ _ => ⟨_, _, rfl⟩⟩
  | value passes pictures =>
      obtain ⟨_, _, _, _, built⟩ := pictures
      cases buildWithin_drawing built with
      | leaf address =>
          refine ⟨freeze_captured _ _, fun _ => rfl, nofun, fun type => ?_⟩
          obtain ⟨c, shape⟩ := (formed _ passes type).shape
          rw [shape] at address
          cases address
      | again => exact ⟨rfl, nofun, fun _ => rfl, fun _ fresh => nomatch fresh⟩
      | whole _ _ members walked labelled =>
          refine ⟨rfl, nofun, nofun, fun type _ => ?_⟩
          obtain ⟨k, x, rfl⟩ := (formed _ passes type).parts members
          exact walked.entry labelled

/-- A node shows the object that its identity is. -/
theorem Node.shown (node : h.Node v n) {c : Address} (identity : n.head.identity = some c) :
    ¬ h.isLeaf (.ref c) ∧ n.head.type = h.typeOf (.ref c) := by
  cases node with
  | entry => cases identity
  | value _ pictures =>
      obtain ⟨_, _, _, _, built⟩ := pictures
      have drawing := buildWithin_drawing built
      have address := drawing.identity.symm.trans identity
      cases eq_ref_of_address address
      exact ⟨fun leaf => by simp [isLeaf_iff.mp leaf] at address, drawing.type⟩

theorem enter_keys {κ ν ε : Type} {isKey : κ → Except ε Bool} {key : κ} {x : ν}
    {es es' : List (κ × ν)} (entered : Entries.enter isKey key x es = .ok es') :
    es'.map (·.1) = es.map (·.1) ∨
      es'.map (·.1) = es.map (·.1) ++ [key] ∧ ∀ k ∈ es.map (·.1), isKey k ≠ .ok true := by
  rcases enter_cases entered with ⟨before, k, y, after, rfl, _, rfl⟩ | ⟨apart, rfl⟩
  · exact .inl (by simp)
  · refine .inr ⟨by simp, List.forall_mem_map.mpr fun e inside => ?_⟩
    simp [apart e inside]

/-- Fields have texts as names. -/
def NamedByTexts (h : Heap) (v : Value) : Prop := ∀ u ps n x, h.PassesBy v u →
  h.HasParts u ps → .field n x ∈ ps → ∃ text, n = .text text

theorem Node.texts (named : h.NamedByTexts v) (node : h.Node v n) :
    ∀ e ∈ n.children, ∃ text, e.1 = .text text := by
  cases node with
  | entry => simp [entryNode, Snapshot.children]
  | value passes pictures =>
      obtain ⟨_, _, _, _, built⟩ := pictures
      cases buildWithin_drawing built with
      | leaf | again => simp [Snapshot.children]
      | whole _ _ members walked labelled =>
          have texts := labelled_forall (A := fun key => ∃ text, key = .text text)
            (B := fun _ => True) labelled fun e inside => by
              obtain ⟨p, member, depicts⟩ := (forall₂_mem walked.pictures).2 e inside
              refine ⟨?_, trivial⟩
              cases depicts with
              | item | entry => exact ⟨_, rfl⟩
              | field known =>
                  obtain ⟨text, rfl⟩ := named _ _ _ _ passes members member
                  exact ⟨text, (Except.ok.inj known).symm⟩
          exact fun e inside => (texts e inside).1

/-- No value is of the class of entries. -/
def Entryless (h : Heap) (v : Value) : Prop := ∀ u, h.PassesBy v u → h.typeOf u ≠ entryClass

theorem Entryless.formed (plain : h.Entryless v) : h.EntriesFormed v :=
  fun u passes type => absurd type (plain u passes)

end Heap

end Assay
