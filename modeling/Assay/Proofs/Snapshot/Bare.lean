import Assay.Proofs.Snapshot.Unlike

/-! # Entries that are values

An object of the class of entries that is met twice shows its key and its value only once.  Where it
is missing on the other side, the difference asks the second node for them.
-/

namespace Assay.Heap

variable {h : Heap} {a b : Value}

/-- The difference of two snapshots is told, where what is asked about it is answered, unless an
    entry that is on one side only was met before. -/
theorem diff_unless_stuck {s t : Snapshot} (told : h.Told a b) (left : h.snapshot a = .ok s)
    (right : h.snapshot b = .ok t) :
    (¬ Snapshot.Stuck h s t → ∃ r, (s.diff h (some t)).2 = .ok r) ∧
      (Snapshot.Stuck h s t → (s.diff h (some t)).2 = .error (.keyError (.text "value")) ∧
        ∃ v, h.Passed a b v ∧ h.typeOf v = entryClass) := by
  have comes := told.comes left right
  exact ⟨comes.1, fun stuck => ⟨comes.2 stuck, told.entry_of_stuck left right stuck⟩⟩

/-- A list that has an entry twice, and one that has nothing. -/
def pairedEntry : Heap where
  classes := Standard.classes []
  objects :=
    let list (items : List Value) : Object := { cls := "list", body := .sequence .list items }
    #[{ cls := entryClass, attrs := [("key", .int 1), ("value", .int 2)] },
      list [.ref 0, .ref 0], list []]

theorem ok_of_toBool {α : Type} {e : Except Fault α} (ok : e.toBool) : ∃ x, e = .ok x := by
  cases e with
  | error f => cases ok
  | ok x => exact ⟨x, rfl⟩

def pairedValues : List Value := [.ref 1, .ref 0, .int 1, .int 2, .ref 2]

theorem pairedEntry_passed {u : Value} (passed : pairedEntry.Passed (.ref 1) (.ref 2) u) :
    u ∈ pairedValues := by
  have closed : ∀ u ∈ pairedValues, ∀ p ∈ pairedEntry.toldParts u, ∀ v ∈ p.values,
      v ∈ pairedValues := by
    decide
  rcases passed with left | right
  · exact left.among_told (by decide) closed
  · exact right.among_told (by decide) closed

theorem pairedEntry_compared {x y : Value} (left : pairedEntry.PassesBy (.ref 1) x)
    (right : pairedEntry.PassesBy (.ref 2) y) (leaf : pairedEntry.isLeaf x)
    (leaf' : pairedEntry.isLeaf y) :
    ∃ r, pairedEntry.contentEqual (pairedEntry.freeze x) (pairedEntry.freeze y) = .ok r := by
  have compared : ∀ x ∈ pairedValues, ∀ y ∈ pairedValues, pairedEntry.isLeaf x →
      pairedEntry.isLeaf y →
      (pairedEntry.contentEqual (pairedEntry.freeze x) (pairedEntry.freeze y)).toBool := by
    decide
  exact ok_of_toBool
    (compared x (pairedEntry_passed (.inl left)) y (pairedEntry_passed (.inr right)) leaf leaf')

theorem pairedEntry_told : pairedEntry.Told (.ref 1) (.ref 2) := by
  have name (n : Value) (names : pairedEntry.Names (.ref 1) (.ref 2) n) : ∃ s, n = .text s := by
    obtain ⟨u, ps, v, passed, parts, inside⟩ := names
    have fields : ∀ u ∈ pairedValues, ∀ p ∈ pairedEntry.toldParts u, p.kind = .structured →
        p = .field (.text "key") (.int 1) ∨ p = .field (.text "value") (.int 2) := by
      decide
    rcases fields u (pairedEntry_passed passed) _ (parts.toldParts_eq.symm ▸ inside) rfl with
      same | same
    · cases same
      exact ⟨_, rfl⟩
    · cases same
      exact ⟨_, rfl⟩
  have label (k : Key) (within : pairedEntry.LabelWithin (.ref 1) (.ref 2) k) :
      ∃ s, k = .text s := by
    rcases within with text | ⟨n, names, made⟩
    · exact text
    · obtain ⟨s, rfl⟩ := name n names
      exact ⟨s, Except.ok.inj (made.symm.trans (key_text s))⟩
  have written : ∀ v ∈ pairedValues, pairedEntry.isLeaf v →
      (pairedEntry.summarize (pairedEntry.freeze v)).toBool := by decide +kernel
  have entry : ∀ v ∈ pairedValues, pairedEntry.typeOf v = entryClass → v = .ref 0 := by
    decide
  constructor
  · intro k k' within within'
    obtain ⟨s, rfl⟩ := label k within
    obtain ⟨t, rfl⟩ := label k' within'
    exact ⟨_, isFor_texts s t⟩
  · intro n names
    obtain ⟨s, rfl⟩ := name n names
    exact Snapshot.named_text s
  · intro v passed leaf
    exact ok_of_toBool (written v (pairedEntry_passed passed) leaf)
  · intro x y left right leaf leaf' _
    exact pairedEntry_compared left right leaf leaf'
  · intro v passed type
    obtain rfl := entry v (pairedEntry_passed passed) type
    exact ⟨0, rfl, rfl, rfl⟩

theorem pairedEntry_stuck : ∃ s t, pairedEntry.snapshot (.ref 1) = .ok s ∧
    pairedEntry.snapshot (.ref 2) = .ok t ∧ Snapshot.Stuck pairedEntry s t := by
  refine ⟨_, _, rfl, rfl, .under rfl (.inl ⟨(.text "[1]", _), .tail _ (.head _), rfl⟩)
    (.missing rfl rfl ?_)⟩
  exact ⟨rfl, rfl⟩

/-- An entry that a list has twice cannot be told to be missing twice. -/
theorem diff_of_pairedEntry : pairedEntry.Told (.ref 1) (.ref 2) ∧
    ∃ s t, pairedEntry.snapshot (.ref 1) = .ok s ∧ pairedEntry.snapshot (.ref 2) = .ok t ∧
      Snapshot.Stuck pairedEntry s t ∧
      (s.diff pairedEntry (some t)).2 = .error (.keyError (.text "value")) := by
  obtain ⟨s, t, left, right, stuck⟩ := pairedEntry_stuck
  exact ⟨pairedEntry_told, s, t, left, right, stuck,
    ((diff_unless_stuck pairedEntry_told left right).2 stuck).1⟩

/-- It is not enough that leaves can be compared. -/
theorem diff_misses_entry : ¬ ∀ (h : Heap) (a b : Value) (s t : Snapshot),
    h.snapshot a = .ok s → h.snapshot b = .ok t →
    (∀ x y, h.PassesBy a x → h.PassesBy b y → h.isLeaf x → h.isLeaf y →
      ∃ r, h.contentEqual (h.freeze x) (h.freeze y) = .ok r) →
    ∃ r, (s.diff h (some t)).2 = .ok r := by
  intro claim
  obtain ⟨s, t, left, right, stuck⟩ := pairedEntry_stuck
  obtain ⟨r, told⟩ := claim pairedEntry (.ref 1) (.ref 2) s t left right
    fun _ _ => pairedEntry_compared
  cases told.symm.trans ((pairedEntry_told.comes left right).2 stuck)

end Assay.Heap
