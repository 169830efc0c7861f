import Assay.Proofs.Clause.Abort
import Assay.Sample.Shapes

/-! # What escapes a call

A call turns what the code it is given raises, and what a comparison raises, into an abort of its
own.  The snapshots it takes and the text it puts on record are not guarded in this way: a fault
they come to leaves the call as it is.
-/

namespace Assay

/-- Whether it is neither an abort nor a misuse, nor a request to end the process. -/
def Raised.isRaw : Raised → Bool
  | .error _ | .duplicate _ _ => true
  | .interrupt _ | .aborted _ _ _ _ | .misused _ _ => false

theorem Raised.isRaw_of_isInterrupt {r : Raised} (interrupt : r.isInterrupt = true) :
    r.isRaw = false := by
  cases r <;> simp_all [Raised.isInterrupt, Raised.isRaw]

theorem Raised.isRaw_of_leavesGroups {r : Raised} (leaves : r.leavesGroups = true) :
    r.isRaw = false := by
  cases r <;> simp_all [Raised.leavesGroups, Raised.isRaw]

/-- A raw exception comes out. -/
def Outcome.Raw {α : Type} (o : Outcome α) : Prop := ∃ r, o.2 = .error r ∧ r.isRaw = true

namespace World

variable {α β : Type} {w w₁ : World} {i : Nat} {block : Block}

/-- In a call on a clause something cannot be put on record: a snapshot that is to be taken of the
    value its code comes to, what its code raises, or the fault of a comparison. -/
inductive Leaks (w : World) (i : Nat) (call : Call) (block : Block) : Prop where
  | value {v w₀ w₁ x y f} : w.handed? i call = some (v, w₀) → block v w₀ = (w₁, .ok x) →
      (∀ m, call = .check m →
        ∃ matched, compare w₁.heap m ((w₁.clause i).subject.getD .null) x = .ok matched) →
      call.kept? x = some y → (w₁.clause i).picture w₁.heap y = .error f → Leaks w i call block
  | raised {v w₀ w₁ r} : w.handed? i call = some (v, w₀) → block v w₀ = (w₁, .error r) →
      call.passes r = false → ¬ w₁.Recordable i r.address → Leaks w i call block
  | fault {m v w₀ w₁ x f} : call = .check m → w.handed? i call = some (v, w₀) →
      block v w₀ = (w₁, .ok x) →
      compare w₁.heap m ((w₁.clause i).subject.getD .null) x = .error f →
      ¬ (w₁.setHeap (w₁.heap.raise f).1).Recordable i (w₁.heap.raise f).2 → Leaks w i call block

/-! ## The steps of a call -/

theorem raw_raise (w : World) (f : Fault) : (w.raise f : Outcome α).Raw := ⟨_, rfl, rfl⟩

theorem not_raw_misuse (w : World) (m : Misuse) : ¬ (w.misuse m : Outcome α).Raw := by
  rintro ⟨_, raised, raw⟩
  cases raised
  cases raw

theorem not_raw_ok (w : World) (x : α) : ¬ Outcome.Raw (w, .ok x) := by
  rintro ⟨_, raised, _⟩
  cases raised

theorem raw_error {r : Raised} : Outcome.Raw ((w, .error r) : Outcome α) ↔ r.isRaw = true := by
  constructor
  · rintro ⟨_, raised, raw⟩
    cases raised
    exact raw
  · exact fun raw => ⟨r, rfl, raw⟩

theorem raw_abort {a : Address} {o : Operation} {role : Role} :
    (w.abort i o role a : Outcome α).Raw ↔ ¬ w.Recordable i a := by
  constructor
  · rintro ⟨r, raised, raw⟩ recordable
    obtain ⟨_, _, _, ended, _⟩ := abort_recordable (α := α) recordable o role
    rw [ended] at raised
    cases raised
    cases raw
  · intro unrecordable
    obtain ⟨x, ended⟩ := abort_unrecordable (α := α) unrecordable o role
    exact ⟨_, ended, rfl⟩

theorem raw_setSubject {o : Operation} {v : Value} :
    (w.setSubject i o v).Raw ↔ ∃ f, (w.clause i).picture w.heap v = .error f := by
  simp only [setSubject, capture_eq]
  cases (w.clause i).picture w.heap v with
  | error f => exact ⟨fun _ => ⟨f, rfl⟩, fun _ => raw_raise _ f⟩
  | ok s => exact ⟨fun raw => (not_raw_ok _ _ raw).elim, fun ⟨_, failed⟩ => nomatch failed⟩

theorem raw_andThen {o : Outcome α} {next : World → α → Outcome β} :
    (o.andThen next).Raw ↔ o.Raw ∨ ∃ w x, o = (w, .ok x) ∧ (next w x).Raw := by
  obtain ⟨w, result⟩ := o
  cases result with
  | error r => simp [Outcome.andThen, raw_error]
  | ok x =>
      simp only [Outcome.andThen, not_raw_ok, false_or]
      refine ⟨fun raw => ⟨w, x, rfl, raw⟩, ?_⟩
      rintro ⟨_, _, same, raw⟩
      cases same
      exact raw

/-- Code is run, and the call goes on with what it comes to. -/
theorem raw_produce_andThen {o : Operation} {role : Role} {v : Value}
    {next : World → Value → Outcome β} :
    ((w.produce i o role (.code block) v).andThen next).Raw ↔
      (∃ w₁ r, block v w = (w₁, .error r) ∧ r.isInterrupt = false ∧
        ¬ w₁.Recordable i r.address) ∨
      ∃ w₁ x, block v w = (w₁, .ok x) ∧ (next w₁ x).Raw := by
  rw [raw_andThen]
  simp only [produce, Argument.block?]
  rcases ran : block v w with ⟨w₁, r | x⟩
  · cases interrupt : r.isInterrupt with
    | true =>
        simp [interrupt, raw_error, Raised.isRaw_of_isInterrupt interrupt]
    | false =>
        simp only [interrupt, Bool.false_eq_true, if_false, raw_abort]
        constructor
        · rintro (unrecordable | ⟨_, _, ended, _⟩)
          · exact .inl ⟨w₁, r, rfl, interrupt, unrecordable⟩
          · exact absurd ended (abort_raises _)
        · rintro (⟨_, _, same, _, unrecordable⟩ | ⟨_, _, same, _⟩) <;> cases same
          exact .inl unrecordable
  · simp [not_raw_ok]

theorem raw_judge {m : Matcher} {x : Value} : (w.judge i m x).Raw ↔
    (∃ f, compare w.heap m ((w.clause i).subject.getD .null) x = .error f ∧
      ¬ (w.setHeap (w.heap.raise f).1).Recordable i (w.heap.raise f).2) ∨
    ∃ matched f, compare w.heap m ((w.clause i).subject.getD .null) x = .ok matched ∧
      (w.clause i).picture w.heap x = .error f := by
  unfold judge
  cases compare w.heap m ((w.clause i).subject.getD .null) x with
  | error f => simp [raw_abort]
  | ok matched =>
      simp only [capture_eq]
      cases (w.clause i).picture w.heap x with
      | error f => simp [raw_raise]
      | ok s => simp [not_raw_ok]

/-- What is caught is told in a note, and then kept. -/
theorem raw_caught {a : Address} : Outcome.Raw (match w.heap.errorText (.ref a) with
      | .error f => w.raise f
      | .ok text => (w.debug [s!"err captured {text}"]).setSubject i .err (.ref a)) ↔
    ¬ w.Recordable i a := by
  cases told : w.heap.errorText (.ref a) with
  | error f =>
      refine ⟨fun _ recordable => ?_, fun _ => raw_raise _ f⟩
      obtain ⟨_, told'⟩ := recordable.told
      cases told.symm.trans told'
  | ok text =>
      have same : (w.debug [s!"err captured {text}"]).heap = w.heap := rfl
      simp only [raw_setSubject, clause_debug, same]
      constructor
      · rintro ⟨f, failed⟩ recordable
        obtain ⟨_, taken⟩ := recordable.taken
        cases failed.symm.trans taken
      · intro unrecordable
        cases taken : (w.clause i).picture w.heap (.ref a) with
        | error f => exact ⟨f, rfl⟩
        | ok s => exact absurd ⟨⟨text, told⟩, s, taken⟩ unrecordable

theorem raw_catchError : (w.catchError i (.code block)).Raw ↔
    (∃ w₁ r, block .null w = (w₁, .error r) ∧ r.isInterrupt = false ∧
      ¬ w₁.Recordable i r.address) ∨
    ∃ w₁ x, block .null w = (w₁, .ok x) ∧
      ∃ f, (w₁.clause i).picture w₁.heap .null = .error f := by
  simp only [catchError, Argument.block?]
  rcases ran : block .null w with ⟨w₁, r | x⟩
  · cases interrupt : r.isInterrupt with
    | true => simp [interrupt, raw_error, Raised.isRaw_of_isInterrupt interrupt]
    | false =>
        simp only [interrupt, Bool.false_eq_true, if_false]
        refine raw_caught.trans ⟨?_, ?_⟩
        · exact fun unrecordable => .inl ⟨w₁, r, rfl, interrupt, unrecordable⟩
        · rintro (⟨_, _, same, _, unrecordable⟩ | ⟨_, _, same, _⟩) <;> cases same
          exact unrecordable
  · simp [raw_setSubject]

theorem recordable_setClause {c : Clause} (same : c.tracing = (w.clause i).tracing) (a : Address) :
    (w.setClause i c).Recordable i a ↔ w.Recordable i a := by
  have picture : ((w.setClause i c).clause i).picture = (w.clause i).picture := by
    rw [clause_setClause_self]
    unfold Clause.picture
    rw [same]
  constructor
  · rintro ⟨told, taken⟩
    exact ⟨told, picture ▸ taken⟩
  · rintro ⟨told, taken⟩
    exact ⟨told, picture ▸ taken⟩

/-- A group takes no snapshot of what its block comes to. -/
theorem raw_endGroup {owner : Operator} {outer : Clause} {out : Outcome Value} :
    (endGroup i owner outer out).Raw ↔
      ∃ r, out.2 = .error r ∧ r.leavesGroups = false ∧ ¬ out.1.Recordable i r.address := by
  obtain ⟨w₁, result⟩ := out
  unfold endGroup
  cases result with
  | ok x =>
      dsimp only
      split
      · simp [not_raw_misuse]
      · simp [not_raw_ok]
  | error r =>
      cases leaves : r.leavesGroups with
      | true => simp [leaves, raw_error, Raised.isRaw_of_leavesGroups leaves]
      | false =>
          simp only [leaves, Bool.false_eq_true, if_false]
          refine (raw_abort.trans (not_congr (recordable_setClause (by rfl) _))).trans ⟨?_, ?_⟩
          · exact fun unrecordable => ⟨r, rfl, leaves, unrecordable⟩
          · rintro ⟨_, same, _, unrecordable⟩
            cases same
            exact unrecordable

/-! ## Whole calls -/

theorem not_leaks_of_refused {call : Call} (refused : w.handed? i call = none) :
    ¬ w.Leaks i call block := by
  intro leaks
  cases leaks with
  | value handed | raised handed | fault _ handed => cases refused.symm.trans handed

theorem raw_that : (w.perform i .that (.code block)).Raw ↔ w.Leaks i .that block := by
  simp only [perform]
  rw [raw_produce_andThen]
  constructor
  · rintro (⟨w₁, r, ran, calm, unrecordable⟩ | ⟨w₁, x, ran, raw⟩)
    · exact .raised rfl ran calm unrecordable
    · obtain ⟨f, failed⟩ := raw_setSubject.mp raw
      exact .value rfl ran (by simp) rfl failed
  · intro leaks
    cases leaks with
    | value handed ran _ kept failed =>
        cases handed
        cases kept
        exact .inr ⟨_, _, ran, raw_setSubject.mpr ⟨_, failed⟩⟩
    | raised handed ran calm unrecordable =>
        cases handed
        exact .inl ⟨_, _, ran, calm, unrecordable⟩
    | fault check => cases check

theorem raw_pick : (w.perform i .pick (.code block)).Raw ↔ w.Leaks i .pick block := by
  simp only [perform, pick]
  cases present : (w.clause i).subject with
  | none =>
      have refused : w.handed? i .pick = none := by simp [handed?, present]
      exact iff_of_false (not_raw_misuse _ _) (not_leaks_of_refused refused)
  | some v =>
      have handed : w.handed? i .pick = some (v, w) := by simp [handed?, present]
      have last (w₁ : World) (x : Value) : ((w₁.setSubject i .pick x).andThen fun w _ =>
          (w.setClause i { w.clause i with restore := some v }, .ok ())).Raw ↔
          ∃ f, (w₁.clause i).picture w₁.heap x = .error f := by
        rw [raw_andThen, raw_setSubject]
        simp [not_raw_ok]
      simp only
      rw [raw_produce_andThen]
      constructor
      · rintro (⟨w₁, r, ran, calm, unrecordable⟩ | ⟨w₁, x, ran, raw⟩)
        · exact .raised handed ran calm unrecordable
        · obtain ⟨f, failed⟩ := (last w₁ x).mp raw
          exact .value handed ran (by simp) rfl failed
      · intro leaks
        cases leaks with
        | value handed' ran _ kept failed =>
            cases handed.symm.trans handed'
            cases kept
            exact .inr ⟨_, _, ran, (last _ _).mpr ⟨_, failed⟩⟩
        | raised handed' ran calm unrecordable =>
            cases handed.symm.trans handed'
            exact .inl ⟨_, _, ran, calm, unrecordable⟩
        | fault check => cases check

theorem raw_err : (w.perform i .err (.code block)).Raw ↔ w.Leaks i .err block := by
  simp only [perform]
  rw [raw_catchError]
  constructor
  · rintro (⟨w₁, r, ran, calm, unrecordable⟩ | ⟨w₁, x, ran, f, failed⟩)
    · exact .raised rfl ran calm unrecordable
    · exact .value rfl ran (by simp) rfl failed
  · intro leaks
    cases leaks with
    | value handed ran _ kept failed =>
        cases handed
        cases kept
        exact .inr ⟨_, _, ran, _, failed⟩
    | raised handed ran calm unrecordable =>
        cases handed
        exact .inl ⟨_, _, ran, calm, unrecordable⟩
    | fault check => cases check

theorem raw_check (m : Matcher) :
    (w.perform i (.check m) (.code block)).Raw ↔ w.Leaks i (.check m) block := by
  simp only [perform]
  cases absent : (w.clause i).subject.isNone with
  | true =>
      have refused : w.handed? i (.check m) = none := by simp [handed?, absent]
      exact iff_of_false (not_raw_misuse _ _) (not_leaks_of_refused refused)
  | false =>
      have handed : w.handed? i (.check m) = some (.null, w) := by simp [handed?, absent]
      simp only [Bool.false_eq_true, if_false]
      rw [raw_produce_andThen]
      constructor
      · rintro (⟨w₁, r, ran, calm, unrecordable⟩ | ⟨w₁, x, ran, raw⟩)
        · exact .raised handed ran calm unrecordable
        · rcases raw_judge.mp raw with ⟨f, compared, unrecordable⟩ | ⟨matched, f, compared, failed⟩
          · exact .fault rfl handed ran compared unrecordable
          · refine .value handed ran (fun m' same => ?_) rfl failed
            cases same
            exact ⟨matched, compared⟩
      · intro leaks
        cases leaks with
        | value handed' ran compared kept failed =>
            cases handed.symm.trans handed'
            cases kept
            obtain ⟨matched, compared⟩ := compared m rfl
            exact .inr ⟨_, _, ran, raw_judge.mpr (.inr ⟨matched, _, compared, failed⟩)⟩
        | raised handed' ran calm unrecordable =>
            cases handed.symm.trans handed'
            exact .inl ⟨_, _, ran, calm, unrecordable⟩
        | fault same handed' ran compared unrecordable =>
            cases same
            cases handed.symm.trans handed'
            exact .inr ⟨_, _, ran, raw_judge.mpr (.inl ⟨_, compared, unrecordable⟩)⟩

theorem raw_logic (op : Operator) :
    (w.perform i (.logic op) (.code block)).Raw ↔ w.Leaks i (.logic op) block := by
  cases issued : (w.clause i).addOperator op with
  | error m =>
      have refused : w.handed? i (.logic op) = none := by simp [handed?, issued]
      simp only [perform, logic, issued]
      exact iff_of_false (not_raw_misuse _ _) (not_leaks_of_refused refused)
  | ok step =>
      have handed : w.handed? i (.logic op) = some (.null,
          (w.update i step).setClause i ((w.update i step).clause i).openGroup) := by
        simp [handed?, issued]
      obtain ⟨step', _, _, ended⟩ := perform_group handed block
      rw [ended, raw_endGroup]
      constructor
      · rintro ⟨r, ran, stays, unrecordable⟩
        exact .raised handed (Prod.ext rfl ran) stays unrecordable
      · intro leaks
        cases leaks with
        | value _ _ _ kept => cases kept
        | raised handed' ran stays unrecordable =>
            cases handed.symm.trans handed'
            rw [ran]
            exact ⟨_, rfl, stays, unrecordable⟩
        | fault check => cases check

theorem not_raw_perform {arg : Argument} {type : ClassName} (refused : arg.block? = .error type)
    (call : Call) : ¬ (w.perform i call arg).Raw := by
  have unrun (block : Block) (passed : arg.block? = .ok block) : w.handed? i call = none := by
    cases refused.symm.trans passed
  rcases unrun_cases unrun with ⟨m, refuses⟩ | ⟨op, step, rfl, rfl, issued⟩
  · rw [perform_of_refuses refuses]
    exact not_raw_misuse _ m
  · rw [perform_operator issued]
    exact not_raw_ok _ _

end World

/-- A raw exception comes out of a call exactly if something that the call is to put on record
    cannot be: a snapshot that is to be taken, or text and snapshot of what is raised. -/
theorem raw_exception_escapes_iff (w : World) (i : Nat) (call : Call) (arg : Argument) :
    (∃ r, (w.perform i call arg).2 = .error r ∧ r.isRaw = true) ↔
      ∃ block, arg = .code block ∧ w.Leaks i call block := by
  cases arg with
  | absent =>
      have refused : Argument.absent.block? = .error "NoneType" := rfl
      refine ⟨fun raw => absurd raw (World.not_raw_perform refused call), ?_⟩
      rintro ⟨_, code, _⟩
      cases code
  | plain type =>
      refine ⟨fun raw => absurd raw (World.not_raw_perform rfl call), ?_⟩
      rintro ⟨_, code, _⟩
      cases code
  | code block =>
      simp only [Argument.code.injEq, exists_eq_left']
      cases call with
      | that => exact World.raw_that
      | pick => exact World.raw_pick
      | err => exact World.raw_err
      | check m => exact World.raw_check m
      | logic op => exact World.raw_logic op

/-- It is not true that every exception of user code comes out as an abort: an object that cannot be
    described has no snapshot. -/
theorem undescribed_subject_escapes : ¬ ∀ (w : World) (i : Nat) (call : Call) (arg : Argument)
    (r : Raised), (w.perform i call arg).2 = .error r → r.isRaw = false := by
  intro claim
  let heap := { Sample.heap with objects := #[{ cls := "Temperature" }] }
  have guarded := claim { memory := { heap } } 0 .that (.code fun _ w => (w, .ok (.ref 0)))
    (.error 2) rfl
  cases guarded

end Assay
