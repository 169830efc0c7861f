import Assay.Proofs.Clause.Evolution
import Assay.Proofs.Clause.Verdict

/-! # What a group leaves alone

A group works on records of its own.  As long as no operator waits in the records below some
index, whatever code does leaves these records as they are, so the chain around a group finds its
operators again as it has left them.
-/

namespace Assay.Clause

/-- A clause can come to fill in only records from an index on. -/
structure Above (base : Nat) (c : Clause) : Prop where
  length : base ≤ c.entries.length
  active : ∀ a, c.active = some a → base ≤ a
  deferred : ∀ d, c.deferred = some d → base ≤ d

/-- The records below an index stay what they are. -/
structure Keeps (base : Nat) (c c' : Clause) : Prop where
  above : Above base c'
  kept : ∀ j < base, c'.entries[j]? = c.entries[j]?

/-- In a new group nothing waits. -/
theorem Above.openGroup {base : Nat} {c : Clause} (length : base ≤ c.entries.length) :
    Above base c.openGroup where
  length := by
    rw [entries_openGroup, List.length_append]
    omega
  active := by simp [Clause.openGroup]
  deferred := by simp [Clause.openGroup]

theorem getElem?_openGroup {c : Clause} {j : Nat} (before : j < c.entries.length) :
    c.openGroup.entries[j]? = c.entries[j]? := by
  rw [entries_openGroup, List.getElem?_append_left before]

/-- Adding a record at the end keeps what is below. -/
theorem Above.keeps_append {base : Nat} {c c' : Clause} {r : Record} (above : Above base c)
    (entries : c'.entries = c.entries ++ [r])
    (active : ∀ a, c'.active = some a → base ≤ a)
    (deferred : ∀ d, c'.deferred = some d → base ≤ d) : Keeps base c c' where
  above := ⟨by rw [entries, List.length_append]; exact Nat.le_add_right_of_le above.length,
    active, deferred⟩
  kept j below := by
    rw [entries, List.getElem?_append_left (Nat.lt_of_lt_of_le below above.length)]

theorem Above.settled {base : Nat} {c : Clause} (above : Above base c) (v : Status) {j : Nat}
    (below : j < base) : (c.settled v).1[j]? = c.entries[j]? :=
  c.getElem?_settled v
    (fun a _ waits => Nat.ne_of_gt
      (Nat.lt_of_lt_of_le below (above.active a (c.waiting?_eq_some.mp waits).1)))
    fun d pushed => Nat.ne_of_gt (Nat.lt_of_lt_of_le below (above.deferred d pushed))

theorem Above.resolve {base : Nat} {c : Clause} (above : Above base c) {r : Record}
    (judged : r.operation.operator? = none) (v : Status) :
    Keeps base c ((c.add r).resolve c.result.trace.length v).1 := by
  obtain ⟨_, active, deferred, entries⟩ := c.resolve_add judged v
  have length := c.length_entries
  have below := above.length
  refine ⟨⟨?_, ?_, ?_⟩, ?_⟩
  · rw [entries, List.length_append, length_settled]
    omega
  · intro a named
    rw [active] at named
    cases named
    omega
  · intro d named
    rw [deferred] at named
    split at named
    · cases named
    · exact above.deferred d named
  · intro j inside
    rw [entries, List.getElem?_append_left (by rw [length_settled]; omega), above.settled v inside]

theorem Above.issue {base : Nat} {c : Clause} (above : Above base c) (op : Operator)
    (left : Status) : Keeps base c (c.issue op left) := by
  have below := above.length
  rw [length_entries] at below
  refine above.keeps_append (c.entries_issue op left) ?_ above.deferred
  intro a named
  cases named
  exact below

/-- Whatever code does, records below everything that waits stay what they are. -/
theorem keeps_evolution (base : Nat) :
    Evolution fun c c' : Clause => Above base c → Keeps base c c' where
  refl c above := ⟨above, fun _ _ => rfl⟩
  trans first second above :=
    have one := first above
    have two := second one.above
    ⟨two.above, fun j below => (two.kept j below).trans (one.kept j below)⟩
  issue := by
    intro c op step issued above
    rcases c.addOperator_cases issued with ⟨_, left, same, _⟩ | ⟨a, _, left, waits, _, same⟩
    · exact same ▸ above.issue op left
    · have pushed : Above base { c with deferred := some a } :=
        ⟨above.length, above.active, fun d named => by
          cases named
          exact above.active a (c.waiting?_eq_some.mp waits).1⟩
      have kept := pushed.issue .not left
      exact same ▸ ⟨kept.above, kept.kept⟩
  setSubject c _ captured v above :=
    above.keeps_append (c.entries_setSubject _ captured v) (by simpa using above.active)
      (by simpa using above.deferred)
  restoreTo c v above := ⟨⟨above.length, above.active, above.deferred⟩, fun _ _ => rfl⟩
  judge c m captured matched above := above.resolve (by cases m <;> rfl) _
  abort c call role text captured above :=
    above.keeps_append (c.entries_abort _ role text captured) above.active above.deferred
  leaveGroup := by
    intro outer inner inside above
    have ran := inside (.openGroup above.length)
    refine ⟨⟨ran.above.length, ran.above.active, ran.above.deferred⟩, fun j below => ?_⟩
    rw [← getElem?_openGroup (Nat.lt_of_lt_of_le below above.length)]
    exact ran.kept j below
  closeGroup := by
    intro outer inner inside _ above
    have ran := inside (.openGroup above.length)
    -- The slots are those of the outer chain again, so the verdict writes above the base as well.
    have resumed : Above base (resume outer { inner with depth := inner.depth - 1 }) :=
      ⟨ran.above.length, above.active, above.deferred⟩
    have closed := resumed.resolve (r := .logic .blockEnd (some outer.result.status)) rfl
      inner.result.status
    refine ⟨closed.above, fun j below => ?_⟩
    rw [← getElem?_openGroup (Nat.lt_of_lt_of_le below above.length), ← ran.kept j below]
    exact closed.kept j below

end Assay.Clause
