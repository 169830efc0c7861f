import Mathlib.Data.List.Forall2

/-! # Lists that are related

Two lists are related element by element. So is what is found in them, and what becomes of them.
-/

namespace Assay

/-- Two pairs of which both parts are related. -/
def Both {α α' β β' : Type} (S : α → α' → Prop) (T : β → β' → Prop) (p : α × β) (q : α' × β') :
    Prop :=
  S p.1 q.1 ∧ T p.2 q.2

variable {α α' β β' γ : Type} {S : α → α' → Prop} {T : β → β' → Prop} {xs : List α} {xs' : List α'}

/-! ## What is in them -/

theorem getElem?_related (related : List.Forall₂ S xs xs') (i : Nat) :
    Option.Rel S xs[i]? xs'[i]? := by
  induction related generalizing i with
  | nil => exact .none
  | cons here _ ih =>
      cases i with
      | zero => exact .some here
      | succ i => exact ih i

theorem forall₂_getElem? (related : List.Forall₂ S xs xs') (i : Nat) :
    (∀ x, xs[i]? = some x → ∃ x', xs'[i]? = some x' ∧ S x x') ∧
      ∀ x', xs'[i]? = some x' → ∃ x, xs[i]? = some x ∧ S x x' := by
  have found := getElem?_related related i
  generalize xs[i]? = x, xs'[i]? = x' at found ⊢
  cases found with
  | none => simp
  | some here => simpa using here

theorem forall₂_mem (related : List.Forall₂ S xs xs') :
    (∀ x ∈ xs, ∃ x' ∈ xs', S x x') ∧ ∀ x' ∈ xs', ∃ x ∈ xs, S x x' := by
  induction related with
  | nil => simp
  | cons here _ ih =>
      refine ⟨List.forall_mem_cons.mpr ⟨⟨_, List.mem_cons_self, here⟩, fun x later => ?_⟩,
        List.forall_mem_cons.mpr ⟨⟨_, List.mem_cons_self, here⟩, fun y later => ?_⟩⟩
      · exact (ih.1 x later).imp fun _ found => found.imp_left (List.mem_cons_of_mem _)
      · exact (ih.2 y later).imp fun _ found => found.imp_left (List.mem_cons_of_mem _)

/-- A list has a partner if each of its members has one. -/
theorem exists_forall₂ : (∃ xs', List.Forall₂ S xs xs') ↔ ∀ x ∈ xs, ∃ x', S x x' := by
  constructor
  · rintro ⟨xs', related⟩ x inside
    obtain ⟨x', _, here⟩ := (forall₂_mem related).1 x inside
    exact ⟨x', here⟩
  · intro each
    induction xs with
    | nil => exact ⟨[], .nil⟩
    | cons x xs ih =>
        obtain ⟨x', here⟩ := each x List.mem_cons_self
        obtain ⟨xs', rest⟩ := ih fun x inside => each x (List.mem_cons_of_mem _ inside)
        exact ⟨x' :: xs', .cons here rest⟩

/-- What stands at some place of a list has a partner at the same place of the other one. -/
theorem forall₂_split {before after : List α'} {x' : α'}
    (related : List.Forall₂ S xs (before ++ x' :: after)) : ∃ before₁ x after₁,
      xs = before₁ ++ x :: after₁ ∧ S x x' ∧ List.Forall₂ S after₁ after := by
  induction before generalizing xs with
  | nil =>
      cases related with
      | cons here rest => exact ⟨[], _, _, rfl, here, rest⟩
  | cons _ before ih =>
      cases related with
      | @cons y _ _ _ _ rest =>
          obtain ⟨before₁, x, after₁, rfl, here, later⟩ := ih rest
          exact ⟨y :: before₁, x, after₁, rfl, here, later⟩

/-! ## What becomes of them -/

theorem zipIdx_related (related : List.Forall₂ S xs xs') (n : Nat) :
    List.Forall₂ (Both S Eq) (xs.zipIdx n) (xs'.zipIdx n) := by
  induction related generalizing n with
  | nil => exact .nil
  | cons here _ ih => exact .cons ⟨here, rfl⟩ (ih (n + 1))

theorem zip_related {ys : List β} {ys' : List β'} (left : List.Forall₂ S xs xs')
    (right : List.Forall₂ T ys ys') : List.Forall₂ (Both S T) (xs.zip ys) (xs'.zip ys') := by
  induction left generalizing ys ys' with
  | nil => exact .nil
  | cons here _ ih =>
      cases right with
      | nil => exact .nil
      | cons there right => exact .cons ⟨here, there⟩ (ih right)

theorem map_related {f : α → β} {f' : α' → β'} (related : List.Forall₂ S xs xs')
    (each : ∀ x x', S x x' → T (f x) (f' x')) : List.Forall₂ T (xs.map f) (xs'.map f') := by
  rw [List.forall₂_map_left_iff, List.forall₂_map_right_iff]
  exact related.imp each

theorem foldl_related {ys : List γ} {f : α → γ → α} {f' : α' → γ → α'} {x : α} {x' : α'}
    (start : S x x') (each : ∀ x x', ∀ y ∈ ys, S x x' → S (f x y) (f' x' y)) :
    S (ys.foldl f x) (ys.foldl f' x') := by
  induction ys generalizing x x' with
  | nil => exact start
  | cons y ys ih =>
      exact ih (each x x' y List.mem_cons_self start) fun x x' y inside =>
        each x x' y (List.mem_cons_of_mem _ inside)

end Assay
