import Assay.Proofs.Heap.Entered
import Assay.Proofs.Likeness.Sharing

/-! # What is left to be entered

A walk that looks into a composite only where it has not been before has less left to enter with
every step down, whatever way it goes through the heap.
-/

namespace Assay

/-- What a walk has done: what it has entered, in order, how deep its calls were nested, and what it
    returns. -/
structure Trip (ι ρ : Type) where
  entered : List ι
  depth : Nat
  result : ρ

namespace Heap

variable (h : Heap)

/-- Every composite lies on the heap. -/
def Contained : Prop := ∀ v a, (h.shape v).address? = some a → a < h.objects.size

def compounds : List Address :=
  (List.range h.objects.size).filter fun a => (h.shape (.ref a)).address?.isSome

/-- How many composites have not been entered. -/
def room (seen : List Address) : Nat := (h.compounds.filter fun a => !seen.contains a).length

variable {h} {seen seen' : List Address} {v : Value} {a : Address}

theorem contained_of_bare (bare : h.hasFieldSource "object" = false) : h.Contained :=
  fun _ _ => live bare

theorem Contained.mem_compounds (contained : h.Contained) (address : (h.shape v).address? = some a) :
    a ∈ h.compounds := by
  have inside := contained v a address
  obtain rfl := eq_ref_of_address address
  exact List.mem_filter.mpr ⟨List.mem_range.mpr inside, by rw [address, Option.isSome_some]⟩

theorem compounds_length : h.compounds.length ≤ h.objects.size := by
  have fewer := List.length_filter_le (fun a => (h.shape (.ref a)).address?.isSome)
    (List.range h.objects.size)
  rwa [List.length_range] at fewer

theorem room_le (seen : List Address) : h.room seen ≤ h.objects.size :=
  Nat.le_trans (List.length_filter_le _ _) compounds_length

theorem room_mono (more : ∀ b ∈ seen, b ∈ seen') : h.room seen' ≤ h.room seen := by
  refine (List.monotone_filter_right _ fun b outside => ?_).length_le
  simp only [List.contains_eq_mem, Bool.not_eq_true', decide_eq_false_iff_not] at outside ⊢
  exact fun present => outside (more b present)

theorem room_enter (inside : a ∈ h.compounds) (new : a ∉ seen) (more : ∀ b ∈ seen, b ∈ seen')
    (entered : a ∈ seen') : h.room seen' < h.room seen := by
  have left : a ∈ h.compounds.filter fun b => !seen.contains b :=
    List.mem_filter.mpr ⟨inside, by simpa using new⟩
  have fewer : (h.compounds.filter fun b => !seen'.contains b).Sublist
      ((h.compounds.filter fun b => !seen.contains b).filter fun b => b != a) := by
    rw [List.filter_filter]
    refine List.monotone_filter_right _ fun b outside => ?_
    simp only [List.contains_eq_mem, Bool.not_eq_true', decide_eq_false_iff_not, Bool.and_eq_true,
      bne_iff_ne] at outside ⊢
    exact ⟨fun same => outside (same ▸ entered), fun present => outside (more b present)⟩
  refine Nat.lt_of_le_of_lt fewer.length_le (List.length_filter_lt_length_iff_exists.mpr ?_)
  exact ⟨a, left, by simp⟩

theorem length_le_compounds {entered : List Address} (once : entered.Nodup)
    (inside : ∀ a ∈ entered, a ∈ h.compounds) : entered.length ≤ h.compounds.length :=
  (once.subperm inside).length_le

end Heap

end Assay
