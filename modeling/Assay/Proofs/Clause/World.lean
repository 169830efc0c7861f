import Assay.Clause.Code

/-! # Clauses in a world

A world holds many clauses under their numbers.  The lemmas here say which clause a step of the
world touches: memory, the log, what is raised and what is registered leave every clause as it is,
and a call between the runs of its code works on the clause it is made on and on no other.
-/

namespace Assay

/-! ## What is filed under numbers -/

namespace Entries

variable {ν : Type}

theorem foldl_fresh_max (es : List (Nat × ν)) (m n : Nat) :
    es.foldl (fun n e => max n (e.1 + 1)) (max m n) =
      max m (es.foldl (fun n e => max n (e.1 + 1)) n) := by
  induction es generalizing n with
  | nil => rfl
  | cons e rest ih => simp only [List.foldl_cons, Nat.max_assoc, ih]

theorem fresh_insert (i : Nat) (x : ν) (es : List (Nat × ν)) :
    fresh (insert (· == ·) i x es) = max (i + 1) (fresh es) := by
  unfold fresh
  induction es with
  | nil => simp [insert]
  | cons e rest ih =>
      obtain ⟨k, v⟩ := e
      by_cases here : k = i
      · simp only [insert, here, beq_self_eq_true, if_true, List.foldl_cons]
        rw [Nat.max_comm 0, foldl_fresh_max]
        omega
      · simp only [insert, beq_iff_eq, here, if_false, List.foldl_cons]
        rw [Nat.max_comm 0, foldl_fresh_max, foldl_fresh_max, ih]
        omega

/-- What is entered under the same key last counts. -/
theorem insert_insert (i : Nat) (x y : ν) (es : List (Nat × ν)) :
    insert (· == ·) i y (insert (· == ·) i x es) = insert (· == ·) i y es := by
  induction es with
  | nil => simp [insert]
  | cons e rest ih =>
      obtain ⟨k, v⟩ := e
      by_cases here : k = i
      · simp [insert, here]
      · simp [insert, here, ih]

end Entries

namespace World

variable {α : Type}

/-! ## Clauses -/

/-- A world of standard classes in which nothing has happened. -/
def start : World := { memory := { heap := { classes := Standard.classes [] } } }

@[simp] theorem clause_setClause_self (w : World) (i : Nat) (c : Clause) :
    (w.setClause i c).clause i = c := by
  simp [clause, setClause, Entries.lookup_insert_self]

theorem setClause_setClause (w : World) (i : Nat) (c c' : Clause) :
    (w.setClause i c).setClause i c' = w.setClause i c' := by
  simp only [setClause, Entries.insert_insert]

theorem clause_setClause_of_ne {i j : Nat} (ne : j ≠ i) (w : World) (c : Clause) :
    (w.setClause j c).clause i = w.clause i := by
  simp [clause, setClause, Entries.lookup_insert_of_ne ne]

@[simp] theorem clause_setHeap (w : World) (h : Heap) (i : Nat) :
    (w.setHeap h).clause i = w.clause i := rfl

@[simp] theorem clause_note (w : World) (level : Level) (channel : Channel) (text : String)
    (i : Nat) : (w.note level channel text).clause i = w.clause i := rfl

@[simp] theorem clause_debug (w : World) (texts : List String) (i : Nat) :
    (w.debug texts).clause i = w.clause i := by
  induction texts generalizing w with
  | nil => rfl
  | cons text rest ih => exact ih (w.note .debug .clause text)

@[simp] theorem clause_update_self (w : World) (i : Nat) (step : Clause × List String) :
    (w.update i step).clause i = step.1 := by
  simp [update]

theorem clause_update_of_ne {i j : Nat} (ne : j ≠ i) (w : World) (step : Clause × List String) :
    (w.update j step).clause i = w.clause i := by
  simp [update, clause_setClause_of_ne ne]

theorem misuse_raises (w : World) (m : Misuse) :
    ∃ x, (w.misuse m : Outcome α).2 = .error (.misused x m) := ⟨_, rfl⟩

@[simp] theorem clause_capture (w : World) (j : Nat) (v : Value) (i : Nat) :
    (w.capture j v).1.clause i = w.clause i := by
  unfold capture
  split <;> rfl

/-- A clause that is made is as new as one that was never touched. -/
@[simp] theorem clause_register (w : World) (facet : Nat) (name : Option TestName) (i : Nat) :
    (w.register facet name).1.clause i = w.clause i := by
  have entered (f : Facet Nat) :
      ((w.setFacet facet f).setClause (Entries.fresh w.clauses) { options := w.options }).clause i =
        w.clause i := by
    by_cases same : Entries.fresh w.clauses = i
    · subst same
      simp [clause, setClause, setFacet, Entries.lookup_insert_self, Entries.lookup_fresh]
    · rw [clause_setClause_of_ne same]
      rfl
  unfold register
  dsimp only
  split <;> split
  · rfl
  · rfl
  · exact entered _
  · exact entered _

/-! ## Facets -/

@[simp] theorem facet_setFacet_self (w : World) (i : Nat) (f : Facet Nat) :
    (w.setFacet i f).facet i = f := by
  simp [facet, setFacet, Entries.lookup_insert_self]

theorem facet_setFacet_of_ne {i j : Nat} (ne : j ≠ i) (w : World) (f : Facet Nat) :
    (w.setFacet j f).facet i = w.facet i := by
  simp [facet, setFacet, Entries.lookup_insert_of_ne ne]

end World

end Assay
