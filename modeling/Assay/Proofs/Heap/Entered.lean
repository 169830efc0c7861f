import Assay.Heap.Basic
import Mathlib.Data.Finset.Card
import Mathlib.Data.Finset.Range

/-! # Composites that were entered

A walk that enters each composite only once goes no deeper than there are objects on the heap.
-/

namespace Assay.Heap

variable (h : Heap)

/-- What has been entered so far: objects of the heap, each of them once. -/
structure Entered (seen : List Address) : Prop where
  once : seen.Nodup
  live : ∀ a ∈ seen, a < h.objects.size

/-- A budget is enough if every object that has not been entered can still be entered. -/
def Enough (budget : Nat) (seen : List Address) : Prop :=
  h.objects.size + 1 ≤ budget + seen.length

variable {h} {budget : Nat} {seen : List Address}

theorem Entered.none : h.Entered [] := ⟨List.nodup_nil, by simp⟩

theorem Entered.length (entered : h.Entered seen) : seen.length ≤ h.objects.size := by
  have inside : seen.toFinset ⊆ Finset.range h.objects.size := fun a present =>
    Finset.mem_range.mpr (entered.live a (List.mem_toFinset.mp present))
  have count := Finset.card_le_card inside
  rwa [List.toFinset_card_of_nodup entered.once, Finset.card_range] at count

theorem Entered.enter (entered : h.Entered seen) {a : Address} (new : a ∉ seen)
    (live : a < h.objects.size) : h.Entered (seen ++ [a]) where
  once := by
    refine List.nodup_append.mpr ⟨entered.once, by simp, fun b present c here same => ?_⟩
    rw [same, List.mem_singleton.mp here] at present
    exact new present
  live b present := by
    rcases List.mem_append.mp present with old | here
    · exact entered.live b old
    · rwa [List.mem_singleton.mp here]

theorem Enough.start : h.Enough (h.objects.size + 1) [] := Nat.le_refl _

theorem Enough.later {seen' : List Address} (enough : h.Enough budget seen)
    (more : seen.length ≤ seen'.length) : h.Enough budget seen' :=
  Nat.le_trans enough (Nat.add_le_add_left more budget)

/-- A budget that is enough is left to enter one more object. -/
theorem Enough.pos (enough : h.Enough budget seen) (entered : h.Entered seen) :
    ∃ budget', budget = budget' + 1 := by
  have room := entered.length
  unfold Enough at enough
  exact ⟨budget - 1, by omega⟩

/-- A step down that enters an object keeps a budget enough. -/
theorem Enough.down {seen' : List Address} (enough : h.Enough (budget + 1) seen)
    (more : seen.length + 1 ≤ seen'.length) : h.Enough budget seen' := by
  unfold Enough at enough ⊢
  omega

end Assay.Heap
