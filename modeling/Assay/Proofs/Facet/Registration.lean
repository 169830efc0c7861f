import Assay.Proofs.Clause.Lockstep
import Assay.Proofs.Clause.Refusal
import Assay.Proofs.Facet.Names

/-! # Registering tests

A facet keeps its tests in the order in which they were registered, under names that are pairwise
different.  A test without a name gets its place for a number.  That number is free unless a test
was asked for under it before, as no test gets the number of a later place.
-/

namespace Assay

/-! ## Between registrations -/

namespace World

/-- Nothing has been registered in between, and no clause has been forgotten. -/
structure Between (w w' : World) : Prop where
  facets : w'.facets = w.facets
  clauses : Entries.fresh w.clauses ≤ Entries.fresh w'.clauses

variable {w w₁ w₂ : World}

theorem Between.refl (w : World) : Between w w := ⟨rfl, Nat.le_refl _⟩

theorem Between.trans (first : Between w w₁) (second : Between w₁ w₂) : Between w w₂ :=
  ⟨second.facets.trans first.facets, Nat.le_trans first.clauses second.clauses⟩

theorem between_setClause (w : World) (i : Nat) (c : Clause) : Between w (w.setClause i c) where
  facets := rfl
  clauses := by
    simp only [setClause, Entries.fresh_insert]
    exact Nat.le_max_right _ _

/-- Memory and the log are of no account. -/
theorem between_memory (w : World) (m : Memory) (log : Array Note) :
    Between w { w with memory := m, log } := ⟨rfl, Nat.le_refl _⟩

theorem between_passage : Passage Between where
  memory := between_memory
  trans := .trans
  issue _ := between_setClause _ _ _
  setSubject w i _ _ _ := between_setClause w i _
  restoreTo w i _ := between_setClause w i _
  judge w i _ _ _ := between_setClause w i _
  abort w i _ _ _ _ := between_setClause w i _

variable {i : Nat} {call : Call} {v : Value}

/-- The code of a call finds what is registered as it was before the call. -/
theorem between_handed (handed : w.handed? i call = some (v, w₁)) : Between w w₁ :=
  between_passage.handed (fun w i => between_setClause w i _) handed

/-- From the end of its code on, a call registers nothing. -/
theorem between_called (handed : w.handed? i call = some (v, w₁)) (b : Block) :
    Between (b v w₁).1 (w.perform i call (.code b)).1 := by
  cases call with
  | logic op =>
      obtain ⟨step, _, _, same⟩ := perform_group handed b
      rw [same]
      exact between_passage.endsGroup (between_setClause _ i _) fun _ => between_setClause _ i _
  | that | pick | err | check m => exact between_passage.called rfl handed (by simp)

end World

/-! ## One registration -/

theorem Entries.contains_iff {κ ν : Type} {same : κ → κ → Bool} {key : κ} {es : List (κ × ν)} :
    contains same key es = true ↔ ∃ e ∈ es, same e.1 key = true := by
  induction es with
  | nil => simp [contains, lookup]
  | cons e rest ih =>
      by_cases here : same e.1 key
      · simp [contains, lookup, here]
      · simpa [contains, lookup, here] using ih

namespace World

variable {w w₁ w₂ : World} {n i : Nat} {t : TestName}

/-- A test has been registered with a facet: it comes last and has a new clause, and all else is as
    it was before. -/
structure Registered (n : Nat) (t : TestName) (i : Nat) (w w' : World) : Prop where
  facet : w'.facet n = { w.facet n with tests := (w.facet n).tests ++ [(t, i)] }
  others : ∀ k, k ≠ n → w'.facet k = w.facet k
  new : Entries.lookup (· == ·) i w.clauses = none
  made : Entries.lookup (· == ·) i w'.clauses = some { options := w.options }
  clauses : ∀ j, w'.clause j = w.clause j

/-- A test of the facet stands under the name. -/
def Taken (w : World) (n : Nat) (t : TestName) : Prop :=
  ∃ e ∈ (w.facet n).tests, e.1.same t = true

/-- A name that is taken is refused, by a fault if it cannot be written. -/
theorem register_of_taken {name : Option TestName}
    (taken : w.Taken n ((w.facet n).nameFor name)) :
    ∃ w' r, w.register n name = (w', .error r) ∧ w'.facets = w.facets ∧ w'.clauses = w.clauses ∧
      (((w.facet n).nameFor name).isWritable → ∃ a, r = .duplicate a
        { facet := (w.facet n).name, test := (w.facet n).nameFor name }) ∧
      (¬ ((w.facet n).nameFor name).isWritable → ∃ a, r = .error a) := by
  have double := Entries.contains_iff.mpr taken
  simp only [register, Facet.register, double, if_true]
  by_cases writable : ((w.facet n).nameFor name).isWritable
  · rw [TestName.written_of_writable writable]
    exact ⟨_, _, rfl, rfl, rfl, fun _ => ⟨_, rfl⟩, fun long => absurd writable long⟩
  · rw [TestName.written_of_not_writable writable]
    exact ⟨_, _, rfl, rfl, rfl, fun written => absurd written writable, fun _ => ⟨_, rfl⟩⟩

theorem Registered.of_entered {w' : World}
    (facets : w'.facets = Entries.insert (· == ·) n
      { w.facet n with tests := (w.facet n).tests ++ [(t, Entries.fresh w.clauses)] } w.facets)
    (clauses : w'.clauses =
      Entries.insert (· == ·) (Entries.fresh w.clauses) { options := w.options } w.clauses)
    (kept : ∀ j, w'.clause j = w.clause j) :
    Registered n t (Entries.fresh w.clauses) w w' where
  facet := by simp [World.facet, facets, Entries.lookup_insert_self]
  others k other := by simp [World.facet, facets, Entries.lookup_insert_of_ne (Ne.symm other)]
  new := Entries.lookup_fresh _
  made := by simp [clauses, Entries.lookup_insert_self]
  clauses := kept

/-- A test is registered under a name that is free, even if the name cannot be written. -/
theorem register_of_free {name : Option TestName}
    (free : ¬ w.Taken n ((w.facet n).nameFor name)) :
    ∃ w' o, w.register n name = (w', o) ∧
      Registered n ((w.facet n).nameFor name) (Entries.fresh w.clauses) w w' ∧
      (((w.facet n).nameFor name).isWritable → o = .ok (Entries.fresh w.clauses)) ∧
      (¬ ((w.facet n).nameFor name).isWritable → ∃ a, o = .error (.error a)) := by
  have single := mt Entries.contains_iff.mp free
  have kept := w.clause_register n name
  simp only [register, Facet.register, single, Bool.false_eq_true, if_false] at kept ⊢
  by_cases writable : ((w.facet n).nameFor name).isWritable
  · rw [TestName.written_of_writable writable] at kept ⊢
    exact ⟨_, _, rfl, .of_entered rfl rfl kept, fun _ => rfl, fun long => absurd writable long⟩
  · rw [TestName.written_of_not_writable writable] at kept ⊢
    exact ⟨_, _, rfl, .of_entered rfl rfl kept, fun written => absurd written writable,
      fun _ => ⟨_, rfl⟩⟩

end World

/-! ## Runs -/

namespace Code

variable {code : Code} {w w₁ : World} {n i j : Nat} {t : TestName} {call : Call} {given : Given}
  {block : Value → Code} {next : Code} {rescue : Raised → Code} {r : Raised}

/-- In its run code asks a facet for a test of a name, whether it gets it or not. -/
def AsksFor (code : Code) (w : World) (n : Nat) (t : TestName) : Prop :=
  ∃ next rescue w', code.Reaches w (.register n (some t) next rescue) w'

/-- What code that a call is given asks for. -/
def AsksWithin (w : World) (i : Nat) (call : Call) (given : Given) (block : Value → Code) (n : Nat)
    (t : TestName) : Prop :=
  given = .code ∧ ∃ v w₀, w.handed? i call = some (v, w₀) ∧ (block v).AsksFor w₀ n t

theorem asksFor_give {v : Value} : ¬ (give v).AsksFor w n t := by
  rintro ⟨_, _, _, reached⟩
  cases reached

theorem asksFor_fail : ¬ (fail r).AsksFor w n t := by
  rintro ⟨_, _, _, reached⟩
  cases reached

theorem asksFor_load {next : Memory → Code} :
    (load next).AsksFor w n t ↔ (next w.memory).AsksFor w n t := by
  refine ⟨fun ⟨_, _, _, reached⟩ => ?_, fun ⟨_, _, _, reached⟩ => ⟨_, _, _, .load reached⟩⟩
  cases reached with
  | load reached => exact ⟨_, _, _, reached⟩

theorem asksFor_save {m : Memory} :
    (save m next).AsksFor w n t ↔ next.AsksFor { w with memory := m } n t := by
  refine ⟨fun ⟨_, _, _, reached⟩ => ?_, fun ⟨_, _, _, reached⟩ => ⟨_, _, _, .save reached⟩⟩
  cases reached with
  | save reached => exact ⟨_, _, _, reached⟩

theorem AsksWithin.asks (within : AsksWithin w i call given block n t) :
    (Code.call i call given block next rescue).AsksFor w n t := by
  obtain ⟨rfl, v, w₀, handed, _, _, _, reached⟩ := within
  exact ⟨_, _, _, .inside handed reached⟩

theorem asksFor_call {o : Except Raised Unit}
    (called : w.perform i call (given.argument fun v => (block v).run) = (w₁, o)) :
    (Code.call i call given block next rescue).AsksFor w n t ↔
      AsksWithin w i call given block n t ∨
        (match o with | .ok _ => next | .error r => rescue r).AsksFor w₁ n t := by
  constructor
  · rintro ⟨_, _, _, reached⟩
    cases reached with
    | inside handed reached => exact .inl ⟨rfl, _, _, handed, _, _, _, reached⟩
    | returned called' reached | raised called' reached =>
        cases called.symm.trans called'
        exact .inr ⟨_, _, _, reached⟩
  · rintro (within | ⟨_, _, _, reached⟩)
    · exact within.asks
    · cases o with
      | ok _ => exact ⟨_, _, _, .returned called reached⟩
      | error r => exact ⟨_, _, _, .raised called reached⟩

theorem asksFor_register {name : Option TestName} {next : Nat → Code} {o : Except Raised Nat}
    (made : w.register j name = (w₁, o)) : (register j name next rescue).AsksFor w n t ↔
      (j = n ∧ name = some t) ∨
        (match o with | .ok i => next i | .error r => rescue r).AsksFor w₁ n t := by
  constructor
  · rintro ⟨_, _, _, reached⟩
    cases reached with
    | here => exact .inl ⟨rfl, rfl⟩
    | registered made' reached | refused made' reached =>
        cases made.symm.trans made'
        exact .inr ⟨_, _, _, reached⟩
  · rintro (⟨rfl, rfl⟩ | ⟨_, _, _, reached⟩)
    · exact ⟨_, _, _, .here⟩
    · cases o with
      | ok i => exact ⟨_, _, _, .registered made reached⟩
      | error r => exact ⟨_, _, _, .refused made reached⟩

end Code

/-- The tests of a facet have names that are pairwise different. -/
def Facet.NamedApart {τ : Type} (f : Facet τ) : Prop :=
  f.tests.Pairwise fun e e' => e.1.same e'.1 = false

/-- Tests have been registered with a facet: under names that it was asked for, and under numbers
    of places.  Each name that it was asked for is taken. -/
structure Registers (n : Nat) (asked : TestName → Prop) (w w' : World) : Prop where
  clauses : Entries.fresh w.clauses ≤ Entries.fresh w'.clauses
  grown : ∃ more, (w'.facet n).tests = (w.facet n).tests ++ more ∧ ∀ e ∈ more,
    e.2 < Entries.fresh w'.clauses ∧
      (asked e.1 ∨ ∃ k : Nat, e.1 = .number k ∧ k ≤ (w'.facet n).tests.length)
  taken : ∀ t, asked t → w'.Taken n t
  apart : (w.facet n).NamedApart → (w'.facet n).NamedApart

namespace Registers

open World

variable {w w₁ w₂ : World} {n : Nat} {asked asked' : TestName → Prop}

/-- Nothing has been registered with the facet. -/
theorem quiet (facet : w₁.facet n = w.facet n)
    (clauses : Entries.fresh w.clauses ≤ Entries.fresh w₁.clauses)
    (taken : ∀ t, asked t → w.Taken n t) : Registers n asked w w₁ where
  clauses := clauses
  grown := ⟨[], by simp [facet], by simp⟩
  taken t asks := by
    rw [World.Taken, facet]
    exact taken t asks
  apart apart := facet ▸ apart

theorem of_between (between : Between w w₁) : Registers n (fun _ => False) w w₁ :=
  quiet (by simp only [World.facet, between.facets]) between.clauses fun _ => False.elim

theorem trans (first : Registers n asked w w₁) (second : Registers n asked' w₁ w₂) :
    Registers n (fun t => asked t ∨ asked' t) w w₂ := by
  obtain ⟨more, tests, entered⟩ := first.grown
  obtain ⟨more', tests', entered'⟩ := second.grown
  have longer : (w₁.facet n).tests.length ≤ (w₂.facet n).tests.length := by
    rw [tests', List.length_append]
    exact Nat.le_add_right _ _
  refine ⟨Nat.le_trans first.clauses second.clauses, ⟨more ++ more', ?_, ?_⟩, ?_, ?_⟩
  · rw [tests', tests, List.append_assoc]
  · intro e inside
    rcases List.mem_append.mp inside with before | after
    · obtain ⟨known, named⟩ := entered e before
      refine ⟨Nat.lt_of_lt_of_le known second.clauses, ?_⟩
      rcases named with asks | ⟨k, numbered, place⟩
      · exact .inl (.inl asks)
      · exact .inr ⟨k, numbered, Nat.le_trans place longer⟩
    · obtain ⟨known, named⟩ := entered' e after
      exact ⟨known, named.imp_left .inr⟩
  · rintro t (asks | asks)
    · obtain ⟨e, inside, same⟩ := first.taken t asks
      exact ⟨e, tests' ▸ List.mem_append_left _ inside, same⟩
    · exact second.taken t asks
  · exact second.apart ∘ first.apart

theorem of_iff (same : ∀ t, asked' t ↔ asked t) (registers : Registers n asked w w₁) :
    Registers n asked' w w₁ := by
  have : asked' = asked := funext fun t => propext (same t)
  exact this ▸ registers

theorem after (between : Between w w₁) (rest : Registers n asked w₁ w₂) : Registers n asked w w₂ :=
  .of_iff (by simp) ((of_between between).trans rest)

theorem before (registers : Registers n asked w w₁) (between : Between w₁ w₂) :
    Registers n asked w w₂ :=
  .of_iff (by simp) (registers.trans (of_between between))

end Registers

namespace World

variable {w w₁ : World} {n i : Nat} {t : TestName}

theorem Registered.lt_fresh (registered : Registered n t i w w₁) :
    i < Entries.fresh w₁.clauses := by
  refine Nat.lt_of_not_le fun above => ?_
  have made := registered.made
  rw [Entries.lookup_above _ above] at made
  cases made

theorem Registered.tests (registered : Registered n t i w w₁) :
    (w₁.facet n).tests = (w.facet n).tests ++ [(t, i)] := by
  rw [registered.facet]

/-- A test under a free name leaves names pairwise different. -/
theorem Registered.namedApart (registered : Registered n t i w w₁) (free : ¬ w.Taken n t)
    (apart : (w.facet n).NamedApart) : (w₁.facet n).NamedApart := by
  rw [Facet.NamedApart, registered.tests]
  refine List.pairwise_append.mpr ⟨apart, by simp, fun e inside e' last => ?_⟩
  rw [List.mem_singleton.mp last, Bool.eq_false_iff]
  exact fun same => free ⟨e, inside, same⟩

theorem Registered.registers {name : Option TestName}
    (registered : Registered n ((w.facet n).nameFor name) i w w₁)
    (free : ¬ w.Taken n ((w.facet n).nameFor name))
    (clauses : Entries.fresh w.clauses ≤ Entries.fresh w₁.clauses) :
    Registers n (name = some ·) w w₁ where
  clauses := clauses
  grown := by
    refine ⟨_, registered.tests, fun e last => ?_⟩
    obtain rfl := List.mem_singleton.mp last
    refine ⟨registered.lt_fresh, ?_⟩
    cases name with
    | some t => exact .inl rfl
    | none => exact .inr ⟨(w.facet n).tests.length + 1, rfl, by simp [registered.tests]⟩
  taken := by
    rintro t rfl
    exact ⟨(t, i), by simp [registered.tests, Facet.nameFor], t.same_self⟩
  apart := registered.namedApart free

/-- One registration takes the name it is asked for. -/
theorem registers_register (w : World) (n k : Nat) (name : Option TestName) :
    Registers n (fun t => k = n ∧ name = some t) w (w.register k name).1 := by
  by_cases taken : w.Taken k ((w.facet k).nameFor name)
  · obtain ⟨w', r, refused, facets, clauses, _⟩ := register_of_taken taken
    rw [refused]
    refine .quiet (by simp only [World.facet, facets]) (Nat.le_of_eq (by rw [clauses])) ?_
    rintro t ⟨rfl, rfl⟩
    exact taken
  · obtain ⟨w', o, made, registered, _⟩ := register_of_free taken
    have more := Nat.le_of_lt registered.lt_fresh
    rw [made]
    by_cases here : k = n
    · subst here
      exact .of_iff (by simp) (registered.registers taken more)
    · refine .quiet (registered.others n (Ne.symm here)) more ?_
      rintro t ⟨same, -⟩
      exact absurd same here

/-- In a call tests are registered by the code that it is given. -/
theorem registers_perform {block : Value → Code}
    (runs : ∀ v w₀, Registers n ((block v).AsksFor w₀ n) w₀ ((block v).run w₀).1) (w : World)
    (i : Nat) (call : Call) (given : Given) : Registers n (Code.AsksWithin w i call given block n) w
      (w.perform i call (given.argument fun v => (block v).run)).1 := by
  by_cases ran : given = .code ∧ ∃ begun, w.handed? i call = some begun
  · obtain ⟨rfl, ⟨v, w₀⟩, handed⟩ := ran
    have within (t : TestName) :
        Code.AsksWithin w i call .code block n t ↔ (block v).AsksFor w₀ n t := by
      refine ⟨fun ⟨_, v', w₀', handed', asks⟩ => ?_, fun asks => ⟨rfl, v, w₀, handed, asks⟩⟩
      cases handed.symm.trans handed'
      exact asks
    have ended := (runs v w₀).before (between_called handed fun v => (block v).run)
    exact .of_iff within (.after (between_handed handed) ended)
  · have unrun (b : Block) (passed : (given.argument fun v => (block v).run).block? = .ok b) :
        w.handed? i call = none := by
      cases given with
      | absent | plain type => cases passed
      | code =>
          cases handed : w.handed? i call with
          | none => rfl
          | some begun => exact absurd ⟨rfl, begun, handed⟩ ran
    refine .of_iff (fun t => iff_false_intro ?_) (.of_between (between_passage.unrun unrun))
    rintro ⟨passed, v, w₀, handed, _⟩
    exact ran ⟨passed, _, handed⟩

end World

/-- In a run tests are registered as the code asks for them. -/
theorem Code.registers_run (n : Nat) (code : Code) (w : World) :
    Registers n (code.AsksFor w n) w (code.run w).1 := by
  induction code generalizing w with
  | give v => exact .of_iff (fun _ => iff_false_intro asksFor_give) (.of_between (.refl w))
  | fail r => exact .of_iff (fun _ => iff_false_intro asksFor_fail) (.of_between (.refl w))
  | load next ih => exact .of_iff (fun _ => asksFor_load) (ih w.memory w)
  | save m next ih =>
      have saved := World.between_memory w m w.log
      exact .of_iff (fun _ => asksFor_save) (.after saved (ih _))
  | call i c given block next rescue ihBlock ihNext ihRescue =>
      have called := World.registers_perform ihBlock w i c given
      simp only [run]
      split <;> rename_i ended <;> rw [ended] at called
      · exact .of_iff (fun _ => asksFor_call ended) (called.trans (ihNext _))
      · exact .of_iff (fun _ => asksFor_call ended) (called.trans (ihRescue _ _))
  | register facet name next rescue ihNext ihRescue =>
      have made := w.registers_register n facet name
      simp only [run]
      split <;> rename_i ended <;> rw [ended] at made
      · exact .of_iff (fun _ => asksFor_register ended) (made.trans (ihNext _ _))
      · exact .of_iff (fun _ => asksFor_register ended) (made.trans (ihRescue _ _))

/-! ## The next registration -/

/-- Registers tests with a facet one after the other.  A refusal ends the run. -/
def Code.registerAll (n : Nat) : List (Option TestName) → Code
  | [] => .give .null
  | name :: rest => .register n name (fun _ => registerAll n rest) .fail

/-- After a run the next test of a facet is in for a refusal: the name it is given is taken, or it
    is given none and there was a test asked for under the number of its place. -/
def Code.Clashes (code : Code) (w : World) (n : Nat) : Option TestName → Prop
  | some t => (code.run w).1.Taken n t
  | none => ∃ t, code.AsksFor w n t ∧ t.number? = some (((code.run w).1.facet n).tests.length + 1)

section

variable (code : Code) {w : World} {n : Nat} (empty : (w.facet n).tests = [])
include empty

/-- What has the number of a place that is still to come was asked for. -/
theorem Code.asksFor_of_number {k : Int} {e : TestName × Nat}
    (inside : e ∈ ((code.run w).1.facet n).tests) (counts : e.1.number? = some k)
    (later : ((code.run w).1.facet n).tests.length < k) : code.AsksFor w n e.1 := by
  obtain ⟨more, tests, entered⟩ := (code.registers_run n w).grown
  rw [empty, List.nil_append] at tests
  rcases (entered e (tests ▸ inside)).2 with asks | ⟨k', numbered, place⟩
  · exact asks
  · rw [numbered, TestName.number?, Option.some.injEq] at counts
    omega

/-- The number of the next place is taken exactly if it was asked for. -/
theorem Code.taken_nameFor (name : Option TestName) :
    (code.run w).1.Taken n (((code.run w).1.facet n).nameFor name) ↔ code.Clashes w n name := by
  cases name with
  | some t => rfl
  | none =>
      simp only [World.Taken, Facet.nameFor, Option.getD_none, TestName.same_number]
      constructor
      · rintro ⟨e, inside, counts⟩
        exact ⟨e.1, code.asksFor_of_number empty inside counts (by omega), counts⟩
      · rintro ⟨t, asks, counts⟩
        obtain ⟨e, inside, same⟩ := (code.registers_run n w).taken t asks
        refine ⟨e, inside, ?_⟩
        rcases TestName.same_iff.mp same with same | ⟨k, left, right⟩
        · exact same ▸ counts
        · exact left.trans (right.symm.trans counts)

end

/-- Whatever code has run on a facet without tests, the next test is refused exactly if it clashes.
    A refusal leaves all facets and clauses as they were.  Otherwise the test comes last, with a
    clause that no other test has, and what was there before is kept.  Of a name that cannot be
    written neither is told: the call raises another exception then. -/
theorem registration_refused_iff {code : Code} {w : World} {n : Nat}
    (empty : (w.facet n).tests = []) (name : Option TestName) :
    let w₁ := (code.run w).1
    let t := (w₁.facet n).nameFor name
    (code.Clashes w n name → ∃ w₂ r, w₁.register n name = (w₂, .error r) ∧
      w₂.facets = w₁.facets ∧ w₂.clauses = w₁.clauses ∧
      (t.isWritable → ∃ a, r = .duplicate a { facet := (w₁.facet n).name, test := t }) ∧
      (¬ t.isWritable → ∃ a, r = .error a)) ∧
    (¬ code.Clashes w n name → ∃ w₂ o i, w₁.register n name = (w₂, o) ∧
      World.Registered n t i w₁ w₂ ∧ (∀ e ∈ (w₁.facet n).tests, e.2 ≠ i) ∧
      (t.isWritable → o = .ok i) ∧ (¬ t.isWritable → ∃ a, o = .error (.error a))) := by
  intro w₁ t
  have taken := code.taken_nameFor empty name
  refine ⟨fun clashes => World.register_of_taken (taken.mpr clashes), fun passes => ?_⟩
  obtain ⟨w₂, o, made, registered, told⟩ := World.register_of_free (mt taken.mp passes)
  refine ⟨w₂, o, _, made, registered, fun e inside => ?_, told⟩
  obtain ⟨more, tests, entered⟩ := (code.registers_run n w).grown
  rw [empty, List.nil_append] at tests
  exact Nat.ne_of_lt (entered e (tests ▸ inside)).1

/-- A test without a name comes third, after one with a name and one without. -/
theorem registration_refused_iff_third :
    let w₁ := ((Code.registerAll 0 [some (.text "a"), none]).run World.start).1
    ∃ w₂ i, w₁.register 0 none = (w₂, .ok i) ∧
      (w₂.facet 0).tests = [(.text "a", 0), (.number 2, 1), (.number 3, i)] := by
  intro w₁
  have free : ¬ (Code.registerAll 0 [some (.text "a"), none]).Clashes World.start 0 none := by
    rw [← Code.taken_nameFor _ rfl]
    unfold World.Taken
    decide +kernel
  have before : (w₁.facet 0).tests = [(.text "a", 0), (.number 2, 1)] := by decide +kernel
  have named : (w₁.facet 0).nameFor none = .number 3 := by simp [Facet.nameFor, before]
  have writable : (TestName.number 3).isWritable := by decide +kernel
  obtain ⟨w₂, o, i, made, registered, _, told, _⟩ := (registration_refused_iff rfl none).2 free
  rw [named] at told registered
  refine ⟨w₂, i, told writable ▸ made, ?_⟩
  rw [registered.tests, before]
  rfl

/-- A test without a name can be refused. -/
theorem unnamed_test_refused : ¬ ∀ (code : Code) (n : Nat),
    ∃ w₂ i, (code.run World.start).1.register n none = (w₂, .ok i) := by
  intro claim
  let code := Code.registerAll 0 [some (.number 2)]
  obtain ⟨w₂, i, made⟩ := claim code 0
  have passed : ((code.run World.start).1.register 0 none).2.toBool = true := by
    rw [made]
    rfl
  exact absurd passed (by decide +kernel)

end Assay
