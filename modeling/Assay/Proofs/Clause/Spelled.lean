import Assay.Proofs.Clause.Chain

/-! # Programs that spell a chain

`Spells` says which marks a program leaves on a clause.  What it asks is about code outside the
clause only: that producers come to their end, and that values can be captured and compared.  That
no call is refused and that the status at the end is the outcome of the chain is proved.
-/

namespace Assay

namespace World

variable {w w₀ w₁ w₂ : World} {i : Nat} {block : Value → Code} {u v x : Value} {s : Option Snapshot}

/-! ## Calls that nothing gets in the way of -/

theorem setSubject_ok (o : Operation) (taken : (w.capture i v).2 = .ok s) :
    ∃ w', w.setSubject i o v = (w', .ok ()) ∧ w'.clause i = (w.clause i).setSubject o s v := by
  cases capture : w.capture i v with
  | mk w₁ captured =>
      have kept := clause_capture w i v i
      rw [capture] at kept taken
      subst taken
      refine ⟨w₁.setClause i ((w₁.clause i).setSubject o s v), ?_, ?_⟩
      · simp only [setSubject, capture]
      · rw [clause_setClause_self]
        exact congrArg (·.setSubject o s v) kept

theorem that_ok (ran : (block .null).run w = (w₁, .ok u)) (taken : (w₁.capture i u).2 = .ok s) :
    ∃ w', w.perform i .that (.code fun v => (block v).run) = (w', .ok ()) ∧
      w'.clause i = (w₁.clause i).setSubject .that s u := by
  simp only [perform, produce, Argument.block?, ran, Outcome.andThen]
  exact setSubject_ok .that taken

theorem pick_ok (present : (w.clause i).subject = some x) (ran : (block x).run w = (w₁, .ok u))
    (taken : (w₁.capture i u).2 = .ok s) :
    ∃ w', w.perform i .pick (.code fun v => (block v).run) = (w', .ok ()) ∧
      w'.clause i = { (w₁.clause i).setSubject .pick s u with restore := some x } := by
  obtain ⟨w', set, clause⟩ := setSubject_ok .pick taken
  refine ⟨w'.setClause i { w'.clause i with restore := some x }, ?_, by simp [clause]⟩
  simp only [perform, pick, present, produce, Argument.block?, ran, Outcome.andThen, set]

theorem err_ok (ran : (block .null).run w = (w₁, .ok u)) (taken : (w₁.capture i .null).2 = .ok s) :
    ∃ w', w.perform i .err (.code fun v => (block v).run) = (w', .ok ()) ∧
      w'.clause i = (w₁.clause i).setSubject .err s .null := by
  simp only [perform, catchError, Argument.block?, ran]
  exact setSubject_ok .err taken

theorem err_caught {r : Raised} {text : String} (ran : (block .null).run w = (w₁, .error r))
    (caught : r.isInterrupt = false) (told : w₁.heap.errorText (.ref r.address) = .ok text)
    (taken : (w₁.capture i (.ref r.address)).2 = .ok s) :
    ∃ w', w.perform i .err (.code fun v => (block v).run) = (w', .ok ()) ∧
      w'.clause i = (w₁.clause i).setSubject .err s (.ref r.address) := by
  have taken' : ((w₁.debug [s!"err captured {text}"]).capture i (.ref r.address)).2 = .ok s := by
    rw [← taken]
    unfold capture
    rw [clause_debug]
    split <;> rfl
  obtain ⟨w', set, clause⟩ := setSubject_ok .err taken'
  rw [clause_debug] at clause
  refine ⟨w', ?_, clause⟩
  simp only [perform, catchError, Argument.block?, ran, caught, told]
  exact set

theorem check_ok {m : Matcher} {l : Bool} (present : (w.clause i).subject.isSome)
    (ran : (block .null).run w = (w₁, .ok u))
    (found : compare w₁.heap m ((w₁.clause i).subject.getD .null) u = .ok l)
    (taken : (w₁.capture i u).2 = .ok s) :
    ∃ w', w.perform i (.check m) (.code fun v => (block v).run) = (w', .ok ()) ∧
      w'.clause i = ((w₁.clause i).judge m s l).1 := by
  have there : (w.clause i).subject.isNone = false := by
    rw [Option.isNone_eq_false_iff]
    exact present
  cases capture : w₁.capture i u with
  | mk w₂ captured =>
      have kept := clause_capture w₁ i u i
      rw [capture] at kept taken
      subst taken
      refine ⟨w₂.update i ((w₂.clause i).judge m s l), ?_, ?_⟩
      · simp only [perform, there, Bool.false_eq_true, if_false, produce, Argument.block?, ran,
          Outcome.andThen, judge, found, capture]
      · rw [clause_update_self]
        exact congrArg (fun c => (Clause.judge c m s l).1) kept

theorem operator_ok {op : Operator} {step : Clause × List String}
    (issued : (w.clause i).addOperator op = .ok step) :
    ∃ w', w.perform i (.logic op) .absent = (w', .ok ()) ∧ w'.clause i = step.1 := by
  refine ⟨w.update i step, ?_, clause_update_self w i step⟩
  simp only [perform, logic, issued]

/-- The block of a group finds the operator issued and the group opened. -/
theorem group_handed {op : Operator} (handed : w.handed? i (.logic op) = some (x, w₀)) :
    ∃ step, (w.clause i).addOperator op = .ok step ∧ w₀.clause i = step.1.openGroup := by
  obtain ⟨step, issued, opened, _⟩ := perform_group handed fun v w => (w, .ok v)
  exact ⟨step, issued, opened⟩

theorem group_ok {op : Operator} {step : Clause × List String}
    (handed : w.handed? i (.logic op) = some (x, w₀))
    (issued : (w.clause i).addOperator op = .ok step) (ran : (block x).run w₀ = (w₂, .ok u))
    (resolved : (w₂.clause i).result.status ≠ .notImplemented) :
    ∃ w', w.perform i (.logic op) (.code fun v => (block v).run) = (w', .ok ()) ∧
      w'.clause i = (Clause.closeGroup step.1
        { w₂.clause i with depth := (w₂.clause i).depth - 1 }).1 := by
  obtain ⟨step', issued', _, called⟩ := perform_group handed fun v => (block v).run
  cases issued.symm.trans issued'
  let inner := { w₂.clause i with depth := (w₂.clause i).depth - 1 }
  refine ⟨(w₂.setClause i inner).update i (Clause.closeGroup step.1 inner), ?_,
    clause_update_self _ _ _⟩
  rw [called, ran]
  simp only [endGroup, resolved, if_false, inner]

end World

/-! ## Marks that a program leaves -/

/-- The world that a call leaves behind. -/
def World.after (w : World) (i : Nat) (c : Call) (given : Given) (block : Value → Code) : World :=
  (w.perform i c (given.argument fun v => (block v).run)).1

/-- Code leaves marks on a clause and comes to an end.  Producers can leave marks of their own,
    and all that leaves the clause as it was can be done in between. -/
inductive Spells (i : Nat) : Code → World → List Mark → Outcome Value → Prop where
  | give {v w} : Spells i (.give v) w [] (w, .ok v)
  | fail {r w} : Spells i (.fail r) w [] (w, .error r)
  | load {next w ms o} : Spells i (next w.memory) w ms o → Spells i (.load next) w ms o
  | save {m next w ms o} : Spells i next { w with memory := m } ms o →
      Spells i (.save m next) w ms o
  | registered {facet name next rescue w w₁ j ms o} : w.register facet name = (w₁, .ok j) →
      Spells i (next j) w₁ ms o → Spells i (.register facet name next rescue) w ms o
  | refused {facet name next rescue w w₁ r ms o} : w.register facet name = (w₁, .error r) →
      Spells i (rescue r) w₁ ms o → Spells i (.register facet name next rescue) w ms o
  | aside {j c given block next rescue w w₁ ms o} :
      w.perform j c (given.argument fun v => (block v).run) = (w₁, .ok ()) →
      w₁.clause i = w.clause i → Spells i next w₁ ms o →
      Spells i (.call j c given block next rescue) w ms o
  | asideRaised {j c given block next rescue w w₁ r ms o} :
      w.perform j c (given.argument fun v => (block v).run) = (w₁, .error r) →
      w₁.clause i = w.clause i → Spells i (rescue r) w₁ ms o →
      Spells i (.call j c given block next rescue) w ms o
  | that {block next rescue w w₁ u s ms ms' o} : Spells i (block .null) w ms (w₁, .ok u) →
      (w₁.capture i u).2 = .ok s → Spells i next (w.after i .that .code block) ms' o →
      Spells i (.call i .that .code block next rescue) w (ms ++ .setter :: ms') o
  | pick {block next rescue w x w₁ u s ms ms' o} : (w.clause i).subject = some x →
      Spells i (block x) w ms (w₁, .ok u) → (w₁.capture i u).2 = .ok s →
      Spells i next (w.after i .pick .code block) ms' o →
      Spells i (.call i .pick .code block next rescue) w (ms ++ .setter :: ms') o
  | err {block next rescue w w₁ u s ms ms' o} : Spells i (block .null) w ms (w₁, .ok u) →
      (w₁.capture i .null).2 = .ok s → Spells i next (w.after i .err .code block) ms' o →
      Spells i (.call i .err .code block next rescue) w (ms ++ .setter :: ms') o
  | caught {block next rescue w w₁ r text s ms ms' o} :
      Spells i (block .null) w ms (w₁, .error r) → r.isInterrupt = false →
      w₁.heap.errorText (.ref r.address) = .ok text → (w₁.capture i (.ref r.address)).2 = .ok s →
      Spells i next (w.after i .err .code block) ms' o →
      Spells i (.call i .err .code block next rescue) w (ms ++ .setter :: ms') o
  | check {m block next rescue w w₁ u l s ms ms' o} : Spells i (block .null) w ms (w₁, .ok u) →
      World.compare w₁.heap m ((w₁.clause i).subject.getD .null) u = .ok l →
      (w₁.capture i u).2 = .ok s → Spells i next (w.after i (.check m) .code block) ms' o →
      Spells i (.call i (.check m) .code block next rescue) w
        (.asked :: (ms ++ .matched l :: ms')) o
  | operator {op block next rescue w ms o} :
      Spells i next (w.after i (.logic op) .absent block) ms o →
      Spells i (.call i (.logic op) .absent block next rescue) w (.operator op :: ms) o
  | group {op block next rescue w w₀ w₂ x u es ms ms' o} :
      w.handed? i (.logic op) = some (x, w₀) → Spells i (block x) w₀ ms (w₂, .ok u) →
      ms.filter Mark.counts = marks es → Spells i next (w.after i (.logic op) .code block) ms' o →
      Spells i (.call i (.logic op) .code block next rescue) w
        (.operator op :: .grouped es :: ms') o

namespace Code

variable {w w' : World} {i : Nat} {c : Call} {given : Given} {block : Value → Code} {next : Code}
  {rescue : Raised → Code}

theorem run_of_returned
    (called : w.perform i c (given.argument fun v => (block v).run) = (w', .ok ())) :
    (Code.call i c given block next rescue).run w = next.run w' := by
  simp only [run, called]

end Code

open Clause World

/-- A call of the chain goes on from the world that the lemma about the call describes. -/
theorem call_proceeds {w w' : World} {i : Nat} {c : Call} {given : Given} {block : Value → Code}
    {next : Code} {rescue : Raised → Code} {t t' : Tally} {o : Outcome Value}
    (called : w.perform i c (given.argument fun v => (block v).run) = (w', .ok ()))
    (shows : (w'.clause i).Shows t)
    (rest : ((w.after i c given block).clause i).Shows t →
      next.run (w.after i c given block) = o ∧ (o.1.clause i).Shows t') :
    (Code.call i c given block next rescue).run w = o ∧ (o.1.clause i).Shows t' := by
  have after : w.after i c given block = w' := congrArg Prod.fst called
  rw [after] at rest
  rw [Code.run_of_returned called]
  exact rest shows

/-- Code that leaves marks which make sense runs to the end that is said of it, and each clause
    shows what has been read. -/
theorem Spells.run {i : Nat} {code : Code} {w : World} {ms : List Mark} {o : Outcome Value}
    (spells : Spells i code w ms o) {t t' : Tally} (shows : (w.clause i).Shows t)
    (reads : t.read ms = some t') : code.run w = o ∧ (o.1.clause i).Shows t' := by
  -- The induction is on how the marks are left; what carries it is that the clause shows the tally.
  induction spells generalizing t t' with
  | give | fail =>
      cases reads
      exact ⟨rfl, shows⟩
  | load _ ih => exact ih shows reads
  | save _ ih => exact ih shows reads
  | @registered facet name _ _ w _ _ _ _ made _ ih =>
      have kept := clause_register w facet name i
      rw [made] at kept
      simp only [Code.run, made]
      exact ih (kept ▸ shows) reads
  | @refused facet name _ _ w _ _ _ _ made _ ih =>
      have kept := clause_register w facet name i
      rw [made] at kept
      simp only [Code.run, made]
      exact ih (kept ▸ shows) reads
  | aside called kept _ ih | asideRaised called kept _ ih =>
      simp only [Code.run, called]
      exact ih (kept ▸ shows) reads
  | that _ taken _ ihBlock ihNext =>
      obtain ⟨t₁, t₂, before, took, rest⟩ := Tally.read_middle reads
      obtain ⟨ran, shows₁⟩ := ihBlock shows before
      obtain ⟨w', called, clause⟩ := that_ok ran taken
      have shows' : (w'.clause _).Shows t₂ := clause ▸ shows_setSubject shows₁ took _ _ _
      exact call_proceeds called shows' fun s => ihNext s rest
  | pick present _ taken _ ihBlock ihNext =>
      obtain ⟨t₁, t₂, before, took, rest⟩ := Tally.read_middle reads
      obtain ⟨ran, shows₁⟩ := ihBlock shows before
      obtain ⟨w', called, clause⟩ := pick_ok present ran taken
      have shows' : (w'.clause _).Shows t₂ :=
        clause ▸ (shows_setSubject shows₁ took _ _ _).restoreTo _
      exact call_proceeds called shows' fun s => ihNext s rest
  | err _ taken _ ihBlock ihNext =>
      obtain ⟨t₁, t₂, before, took, rest⟩ := Tally.read_middle reads
      obtain ⟨ran, shows₁⟩ := ihBlock shows before
      obtain ⟨w', called, clause⟩ := err_ok ran taken
      have shows' : (w'.clause _).Shows t₂ := clause ▸ shows_setSubject shows₁ took _ _ _
      exact call_proceeds called shows' fun s => ihNext s rest
  | caught _ goesOn told taken _ ihBlock ihNext =>
      obtain ⟨t₁, t₂, before, took, rest⟩ := Tally.read_middle reads
      obtain ⟨ran, shows₁⟩ := ihBlock shows before
      obtain ⟨w', called, clause⟩ := err_caught ran goesOn told taken
      have shows' : (w'.clause _).Shows t₂ := clause ▸ shows_setSubject shows₁ took _ _ _
      exact call_proceeds called shows' fun s => ihNext s rest
  | @check m _ _ _ _ _ _ l captured _ _ _ _ found taken _ ihBlock ihNext =>
      cases t with
      | fresh => cases reads
      | begun acc pending =>
          obtain ⟨t₁, t₂, before, took, rest⟩ := Tally.read_middle reads
          obtain ⟨ran, shows₁⟩ := ihBlock shows before
          obtain ⟨w', called, clause⟩ := check_ok shows.present ran found taken
          cases t₁ with
          | fresh => cases took
          | begun acc₁ pending₁ =>
              cases took
              have shows' := clause ▸ shows_judge shows₁ m captured l
              exact call_proceeds called shows' fun s => ihNext s rest
  | @operator op _ _ _ _ _ _ _ ihNext =>
      rw [Tally.read_cons, Option.bind_eq_some_iff] at reads
      obtain ⟨t₁, took, rest⟩ := reads
      obtain ⟨acc, pending, rfl, legal, rfl⟩ := Tally.take_operator took
      obtain ⟨step, issued⟩ := addOperator_accepts shows legal
      obtain ⟨w', called, clause⟩ := operator_ok issued
      exact call_proceeds called (clause ▸ shows_addOperator shows issued) fun s => ihNext s rest
  | @group op block _ _ _ w₀ w₂ x u es ms _ _ handed _ reading _ ihBlock ihNext =>
      rw [Tally.read_cons, Option.bind_eq_some_iff] at reads
      obtain ⟨t₁, took, rest⟩ := reads
      obtain ⟨acc, pending, rfl, legal, rfl⟩ := Tally.take_operator took
      have inside : (Tally.begun true []).read ms = some (.begun (outcomes true es) []) := by
        rw [Tally.read_counts, reading, Tally.read_marks]
      -- The block starts from the opened group and finds the same record of the operator again.
      obtain ⟨step, issued, opened⟩ := group_handed handed
      have outer := shows_addOperator shows issued
      obtain ⟨ran, ended⟩ := ihBlock (opened ▸ shows_openGroup outer.present) inside
      have kept := Code.evolves_run (keeps_evolution step.1.entries.length) i (block x) w₀
      rw [Evolves, ran, opened] at kept
      have same : ∀ j < step.1.entries.length, (w₂.clause i).entries[j]? = step.1.entries[j]? :=
        fun j below => ((kept (.openGroup (Nat.le_refl _))).kept j below).trans
          (getElem?_openGroup below)
      have resolved : (w₂.clause i).result.status ≠ .notImplemented :=
        ended.status ▸ ofMatch_ne_notImplemented _
      obtain ⟨w', called, clause⟩ := group_ok handed issued ran resolved
      exact call_proceeds called (clause ▸ shows_closeGroup outer (ended.setDepth _) same) fun s =>
        ihNext s rest

/-- The status at the end of a chain that starts with a subject is the outcome of its elements. -/
theorem chain_outcome {i : Nat} {code : Code} {w : World} {ms : List Mark} {o : Outcome Value}
    {es : List Element} {options : Options} (fresh : w.clause i = { options })
    (spells : Spells i code w (.setter :: ms) o) (elements : ms.filter Mark.counts = marks es) :
    code.run w = o ∧ (o.1.clause i).result.status = .ofMatch (es.foldl Element.outcome true) := by
  have shows : (w.clause i).Shows .fresh := by
    rw [fresh]
    exact ⟨rfl, rfl, rfl⟩
  have reads : Tally.fresh.read (.setter :: ms) = some (.begun (outcomes true es) []) := by
    rw [Tally.read_cons, Tally.take, Option.bind_some, Tally.read_counts, elements,
      Tally.read_marks]
  obtain ⟨ran, ended⟩ := spells.run shows reads
  rw [← outcomes_eq_foldl]
  exact ⟨ran, ended.status⟩

theorem chain_outcome_not_group :
    let block : Value → Code := fun _ => Code.calls 0
      [(.check .is, .code, fun _ => .give (.int 2)), (.logic .or, .absent, fun _ => .give .null),
        (.check .is, .code, fun _ => .give (.int 1))]
    let code := Code.calls 0
      [(.that, .code, fun _ => .give (.int 1)), (.logic .not, .code, block)]
    let es := [Element.grouped none 1 [.matched none 0 false, .matched (some .or) 0 true]]
    World.start.clause 0 = { options := .default } ∧
      ∃ ms o, Spells 0 code World.start (.setter :: ms) o ∧ ms.filter Mark.counts = marks es ∧
        code.run World.start = o ∧ (o.1.clause 0).result.status = .fail := by
  intro block code es
  have asks {w : World} {n : Int} {l : Bool} {next : Code} {ms : List Mark} {o : Outcome Value}
      (found : World.compare w.heap .is ((w.clause 0).subject.getD .null) (.int n) = .ok l)
      {s : Option Snapshot} (taken : (w.capture 0 (.int n)).2 = .ok s)
      (rest : Spells 0 next (w.after 0 (.check .is) .code fun _ => .give (.int n)) ms o) :
      Spells 0 (.call 0 (.check .is) .code (fun _ => .give (.int n)) next .fail) w
        (.asked :: .matched l :: ms) o :=
    @Spells.check 0 .is (fun _ => .give (.int n)) next .fail w w (.int n) l s [] ms o .give found
      taken rest
  have spells : Spells 0 code World.start (.setter :: _) _ :=
    @Spells.that 0 (fun _ => .give (.int 1)) _ .fail World.start World.start (.int 1) _ [] _ _ .give
      rfl (.group rfl (asks rfl rfl (.operator (asks rfl rfl .give)))
        (rfl : _ = marks [.matched none 0 false, .matched (some .or) 0 true]) .give)
  exact ⟨rfl, _, _, spells, rfl, chain_outcome rfl spells (rfl : _ = marks es)⟩

end Assay
