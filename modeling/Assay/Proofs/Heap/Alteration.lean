import Assay.Heap.Change
import Assay.Proofs.Facet.Company

/-! # Objects that are left alone

Objects are made at new addresses, and a change reaches only the object behind the value that it is
applied to.  So while others are made and changed, what lies in a place stays as it is.
-/

namespace Assay.Heap

/-- Objects have been made and changed, but none of those that lie in a place. -/
inductive Altered (place : Set Address) (h : Heap) : Heap → Prop where
  | same : Altered place h h
  | made {h'} (o : Object) : Altered place h h' → Altered place h (h'.alloc o).1
  | changed {h' h'' target c} : Altered place h h' → (∀ a ∈ place, target ≠ .ref a) →
      h'.change target c = .ok h'' → Altered place h h''

/-- What lies in a place is as it was before. -/
structure Spares (place : Set Address) (h h' : Heap) : Prop where
  classes : h'.classes = h.classes
  size : h.objects.size ≤ h'.objects.size
  objects : ∀ a ∈ place, h'.object a = h.object a

variable {place : Set Address} {h h' h'' : Heap} {target : Value}

theorem Spares.refl : Spares place h h := ⟨rfl, Nat.le_refl _, fun _ _ => rfl⟩

theorem Spares.trans (first : Spares place h h') (second : Spares place h' h'') :
    Spares place h h'' where
  classes := second.classes.trans first.classes
  size := Nat.le_trans first.size second.size
  objects a inside := (second.objects a inside).trans (first.objects a inside)

theorem spares_alloc (live : ∀ a ∈ place, a < h.objects.size) (o : Object) :
    Spares place h (h.alloc o).1 where
  classes := rfl
  size := by simp [alloc]
  objects a inside := by rw [object_alloc, if_neg (Nat.ne_of_lt (live a inside))]

theorem spares_set {a : Address} (outside : a ∉ place) (o : Object) :
    Spares place h (h.set a o) where
  classes := rfl
  size := by simp [set]
  objects b inside := by
    have ne : a ≠ b := fun same => outside (same ▸ inside)
    simp [set, object, Array.getElem?_setIfInBounds_ne ne]

theorem spares_tuple (live : ∀ a ∈ place, a < h.objects.size) (items : List Value) :
    Spares place h (h.tuple items).1 := by
  unfold tuple
  split
  · exact .refl
  · exact spares_alloc live _

/-! ## One change -/

theorem withAttribute_spares (live : ∀ a ∈ place, a < h.objects.size)
    (outside : ∀ a ∈ place, target ≠ .ref a) {name : String} {v : Value}
    (done : h.withAttribute target name v = .ok h') : Spares place h h' := by
  unfold withAttribute at done
  cases target with
  | member m =>
      cases done
      exact .refl
  | ref a =>
      have apart : a ∉ place := fun inside => outside a inside rfl
      dsimp only at done
      split at done
      · split at done
        · cases items : h.items v with
          | error f => simp [items, Except.map] at done
          | ok vs =>
              simp only [items, Except.map, Except.ok.injEq] at done
              exact done ▸ (spares_tuple live vs).trans (spares_set apart _)
        · cases done
          exact spares_set apart _
      · split at done
        · cases done
          exact spares_set apart _
        · split at done
          · cases done
            exact spares_set apart _
          · cases done
  | _ => cases done

theorem withoutAttribute_spares (outside : ∀ a ∈ place, target ≠ .ref a) {name : String}
    (done : h.withoutAttribute target name = .ok h') : Spares place h h' := by
  unfold withoutAttribute at done
  cases target with
  | ref a =>
      have apart : a ∉ place := fun inside => outside a inside rfl
      dsimp only at done
      split at done <;> split at done <;> cases done <;> exact spares_set apart _
  | _ => cases done

/-- A change leaves alone all that it is not applied to. -/
theorem change_spares (live : ∀ a ∈ place, a < h.objects.size)
    (outside : ∀ a ∈ place, target ≠ .ref a) {c : Change Value}
    (done : h.change target c = .ok h') : Spares place h h' := by
  have body {result : Except Fault Body} {put : Body → Heap} (each : ∀ b, Spares place h (put b))
      (done : result.map put = .ok h') : Spares place h h' := by
    cases result with
    | error f => cases done
    | ok b =>
        cases done
        exact each b
  unfold change at done
  cases c with
  | setAttribute name v =>
      cases named : h.attributeName name with
      | error f => simp [named, bind, Except.bind] at done
      | ok text =>
          simp only [named, bind, Except.bind] at done
          exact withAttribute_spares live outside done
  | deleteAttribute name =>
      cases named : h.attributeName name with
      | error f => simp [named, bind, Except.bind] at done
      | ok text =>
          simp only [named, bind, Except.bind] at done
          exact withoutAttribute_spares outside done
  | _ =>
      refine body (fun b => ?_) done
      cases target with
      | ref a => exact spares_set (fun inside => outside a inside rfl) _
      | _ => exact .refl

/-! ## All changes -/

theorem Altered.spares (live : ∀ a ∈ place, a < h.objects.size) (altered : Altered place h h') :
    Spares place h h' := by
  induction altered with
  | same => exact .refl
  | made o _ ih => exact ih.trans (spares_alloc (fun a inside => (live a inside).trans_le ih.size) o)
  | changed _ outside done ih =>
      exact ih.trans (change_spares (fun a inside => (live a inside).trans_le ih.size) outside done)

end Assay.Heap
