import Assay.Proofs.Renaming.Basic
import Mathlib.Data.Finset.Card

/-! # Budgets on two heaps

A question about one heap is asked with the budget of that heap, and about another heap with another
one. What comes of it may not depend on that. It does not if the question asks itself again with a
budget that is smaller by one, and if only so many arguments can make it do so as the budget counts:
for each budget up to that, some argument would have to be the first to need it.
-/

namespace Assay

/-- Where a run rests with every argument for one step, it rests. Outside a finite set it always
does, and an argument that is answered is answered for good. -/
theorem rests_within {α β : Type} {F : Nat → α → β} {P : α → Prop} (none : β) (inside : Finset α)
    (keeps : ∀ n x, P x → F n x ≠ none → F (n + 1) x = F n x)
    (rests : ∀ n, (∀ x, P x → F (n + 1) x = F n x) → ∀ x, P x → F (n + 2) x = F (n + 1) x)
    (outside : ∀ n x, P x → x ∉ inside → F (n + 2) x = F (n + 1) x) {n : Nat}
    (enough : inside.card ≤ n) {x : α} (here : P x) : F (n + 1) x = F (inside.card + 1) x := by
  classical
  let answered (n : Nat) : Finset α := inside.filter fun x => P x ∧ F (n + 1) x ≠ none
  -- Each budget at which the run does not rest answers another argument for the first time.
  have grows (n : Nat) (restless : ¬ ∀ x, P x → F (n + 2) x = F (n + 1) x) :
      (answered n).card < (answered (n + 1)).card := by
    push Not at restless
    obtain ⟨x, here, changes⟩ := restless
    have open' : F (n + 1) x = none := by
      by_contra closed
      exact changes (keeps (n + 1) x here closed)
    have member : x ∈ inside := by
      by_contra out
      exact changes (outside n x here out)
    refine Finset.card_lt_card (Finset.ssubset_iff_of_subset ?_ |>.mpr ⟨x, ?_, ?_⟩)
    · intro y present
      obtain ⟨member, there, closed⟩ := Finset.mem_filter.mp present
      refine Finset.mem_filter.mpr ⟨member, there, ?_⟩
      rwa [keeps (n + 1) y there closed]
    · exact Finset.mem_filter.mpr ⟨member, here, open' ▸ changes⟩
    · exact fun present => (Finset.mem_filter.mp present).2.2 open'
  obtain ⟨start, le, still⟩ : ∃ start ≤ inside.card, ∀ x, P x → F (start + 2) x = F (start + 1) x := by
    by_contra never
    push Not at never
    have count (n : Nat) (le : n ≤ inside.card + 1) : n ≤ (answered n).card := by
      induction n with
      | zero => exact Nat.zero_le _
      | succ n ih =>
          refine Nat.lt_of_le_of_lt (ih (by omega)) (grows n ?_)
          push Not
          exact never n (by omega)
    have most : (answered (inside.card + 1)).card ≤ inside.card := Finset.card_filter_le _ _
    have := count (inside.card + 1) (Nat.le_refl _)
    omega
  have later (k : Nat) : ∀ x, P x → F (start + k + 2) x = F (start + k + 1) x := by
    induction k with
    | zero => exact still
    | succ k ih => exact rests (start + k + 1) ih
  have same (m : Nat) (from' : start ≤ m) : F (m + 1) x = F (start + 1) x := by
    induction m, from' using Nat.le_induction with
    | base => rfl
    | succ m from' ih =>
        obtain ⟨k, rfl⟩ := Nat.exists_eq_add_of_le from'
        exact (later k x here).trans ih
  rw [same n (Nat.le_trans le enough), same _ le]

namespace Results

variable {α α' β β' : Type} {R : Renaming} {lacking : Prop} {S : β → β' → Prop}

/-- What comes to the same result on the other side is the same, unless it has been cut short. -/
theorem unique (ordered : R.Ordered) (one : Relator.LeftUnique S) {r t : Except Fault β}
    {r' : Except Fault β'} (first : Results R lacking S r r') (second : Results R False S t r') :
    r = .error .tooDeep ∨ t = r := by
  cases first with
  | cut => exact .inl rfl
  | ok here =>
      cases second with
      | ok there => exact .inr (congrArg Except.ok (one there here))
      | cut lacks => exact lacks.elim
  | error same =>
      cases second with
      | cut lacks => exact lacks.elim
      | @error g _ same' =>
          have values : Relator.LeftUnique (Value.Renamed R) := fun _ _ _ left right =>
            (left.eq_iff ordered right).mpr rfl
          have args := List.left_unique_forall₂' values same'.args same.args
          refine .inr (congrArg Except.error ?_)
          rename_i f _
          cases f
          cases g
          simp only [Fault.mk.injEq]
          exact ⟨same'.cls.symm.trans same.cls, args⟩

theorem eq_of_strict (ordered : R.Ordered) (one : Relator.LeftUnique S) {r t : Except Fault β}
    {r' : Except Fault β'} (first : Results R False S r r') (second : Results R False S t r') :
    t = r := by
  rcases first.unique ordered one second with cut | same
  · rcases second.unique ordered one first with cut' | same
    · rw [cut, cut']
    · exact same.symm
  · exact same

/-- A question that is asked again with a budget smaller by one comes to the same on two heaps,
each with its own budget, if these budgets count the arguments that make it ask again. -/
theorem settled (P : α → α' → Prop) (F : Nat → α → Except Fault β) (F' : Nat → α' → Except Fault β')
    (ordered : R.Ordered) (one : Relator.LeftUnique S)
    (zero : ∀ x, F 0 x = .error .tooDeep) (zero' : ∀ x', F' 0 x' = .error .tooDeep)
    (step : ∀ lacking n m, (∀ x x', P x x' → Results R lacking S (F n x) (F' m x')) →
      ∀ x x', P x x' → Results R lacking S (F (n + 1) x) (F' (m + 1) x'))
    (inside : Finset α) (outside : ∀ n x x', P x x' → x ∉ inside → F (n + 2) x = F (n + 1) x)
    {m n : Nat} (enough : inside.card ≤ m) (le : m ≤ n) {x : α} {x' : α'} (related : P x x') :
    Results R False S (F (m + 1) x) (F' (n + 1) x') := by
  have same (n : Nat) : ∀ x x', P x x' → Results R False S (F n x) (F' n x') := by
    induction n with
    | zero =>
        intro x x' _
        rw [zero, zero']
        exact .tooDeep
    | succ n ih => exact step False n n ih
  have less (n : Nat) : ∀ x x', P x x' → Results R True S (F n x) (F' (n + 1) x') := by
    induction n with
    | zero =>
        intro x x' _
        rw [zero]
        exact .cut trivial
    | succ n ih => exact step True n (n + 1) ih
  have settled {k : Nat} (enough : inside.card ≤ k) : F (k + 1) x = F (inside.card + 1) x := by
    refine rests_within (P := fun x => ∃ x', P x x') (.error .tooDeep) inside ?_ ?_ ?_ enough
      ⟨x', related⟩
    · rintro n x ⟨x', here⟩ answered
      exact ((less n x x' here).unique ordered one (same (n + 1) x x' here)).resolve_left answered
    · rintro n rests x ⟨x', here⟩
      refine (step False n (n + 1) (fun y y' there => ?_) x x' here).eq_of_strict ordered one
        (same (n + 2) x x' here)
      rw [← rests y ⟨y', there⟩]
      exact same (n + 1) y y' there
    · rintro n x ⟨x', here⟩
      exact outside n x x' here
  rw [settled enough, ← settled (Nat.le_trans enough le)]
  exact same (n + 1) x x' related

end Results

end Assay
