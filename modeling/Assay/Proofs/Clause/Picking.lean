import Assay.Proofs.Clause.Course
import Assay.Proofs.Clause.Places

/-! # Subjects that are put aside

A `pick` puts the subject of a chain aside and another value in its place, until there is a
verdict.  A clause has room for one subject that is put aside.  `Custody` follows the subject a
chain began with through the turns the chain takes: it comes back with the next verdict unless another
`pick` comes before that, and a group that nothing is put aside for may end with it put aside, which
is forgotten with the group.
-/

namespace Assay

/-! ## Turns of a chain -/

/-- What a call of a chain means for its subject: there is a verdict, a value is put in its place,
    or a group takes turns of its own and then has its verdict. -/
inductive Turn where
  | verdict
  | pick (v : Value)
  | group (block : List Turn)

/-- Where the subject is that a chain began with. -/
inductive Custody where
  /-- It is the subject. -/
  | present
  /-- It is put aside and comes back with the next verdict. -/
  | aside
  /-- It does not come back. -/
  | lost
  deriving DecidableEq, Repr

mutual
/-- Where a turn leaves the subject. -/
def Turn.custody : Custody → Turn → Custody
  | .lost, _ => .lost
  | .present, .verdict | .aside, .verdict => .present
  | .present, .pick _ => .aside
  | .aside, .pick _ => .lost
  | .aside, .group _ => .present
  | .present, .group block => if custody .present block = .present then .present else .lost

/-- Where turns leave the subject, one after the other. -/
def custody (c : Custody) : List Turn → Custody
  | [] => c
  | t :: ts => custody (t.custody c) ts
end

mutual
def Turn.picked : Turn → List Value
  | .verdict => []
  | .pick v => [v]
  | .group block => picked block

/-- The values that are put in the place of the subject, those in groups included. -/
def picked : List Turn → List Value
  | [] => []
  | t :: ts => t.picked ++ picked ts
end

/-- Whether a verdict is given at the end of a turn. -/
def Turn.judges : Turn → Bool
  | .verdict | .group _ => true
  | .pick _ => false

theorem custody_append (c : Custody) (ts us : List Turn) :
    custody c (ts ++ us) = custody (custody c ts) us := by
  induction ts generalizing c with
  | nil => rfl
  | cons t ts ih => simp only [List.cons_append, custody, ih]

theorem picked_append (ts us : List Turn) : picked (ts ++ us) = picked ts ++ picked us := by
  induction ts with
  | nil => rfl
  | cons t ts ih => simp only [List.cons_append, picked, ih, List.append_assoc]

/-- After a verdict nothing is put aside. -/
theorem Turn.custody_ne_aside {t : Turn} (judges : t.judges = true) (c : Custody) :
    t.custody c ≠ .aside := by
  cases t with
  | pick v => cases judges
  | verdict => cases c <;> simp [Turn.custody]
  | group block =>
      cases c with
      | present =>
          simp only [Turn.custody]
          split <;> simp
      | aside | lost => simp [Turn.custody]

/-- Code, run from one world, takes turns on a clause and comes to a place.  What a `pick` is given
    can do anything; what a matcher is given can take turns of its own before the verdict.  All that
    leaves the clause as it was can be done in between. -/
inductive Takes (i : Nat) : Code → World → List Turn → Code → World → Prop where
  | here {k w} : Takes i k w [] k w
  | load {next w ts k w'} : Takes i (next w.memory) w ts k w' → Takes i (.load next) w ts k w'
  | save {m next w ts k w'} : Takes i next { w with memory := m } ts k w' →
      Takes i (.save m next) w ts k w'
  | registered {facet name next rescue w w₁ j ts k w'} : w.register facet name = (w₁, .ok j) →
      Takes i (next j) w₁ ts k w' → Takes i (.register facet name next rescue) w ts k w'
  | refused {facet name next rescue w w₁ r ts k w'} : w.register facet name = (w₁, .error r) →
      Takes i (rescue r) w₁ ts k w' → Takes i (.register facet name next rescue) w ts k w'
  | aside {j c given block next rescue w w₁ ts k w'} :
      w.perform j c (given.argument fun v => (block v).run) = (w₁, .ok ()) →
      w₁.clause i = w.clause i → Takes i next w₁ ts k w' →
      Takes i (.call j c given block next rescue) w ts k w'
  | asideRaised {j c given block next rescue w w₁ r ts k w'} :
      w.perform j c (given.argument fun v => (block v).run) = (w₁, .error r) →
      w₁.clause i = w.clause i → Takes i (rescue r) w₁ ts k w' →
      Takes i (.call j c given block next rescue) w ts k w'
  | operator {op block next rescue w w₁ ts k w'} :
      w.perform i (.logic op) .absent = (w₁, .ok ()) → Takes i next w₁ ts k w' →
      Takes i (.call i (.logic op) .absent block next rescue) w ts k w'
  | pick {block next rescue w x w₀ u w₁ ts k w'} : (w.clause i).subject = some x →
      (block x).run w = (w₀, .ok u) →
      w.perform i .pick (.code fun v => (block v).run) = (w₁, .ok ()) → Takes i next w₁ ts k w' →
      Takes i (.call i .pick .code block next rescue) w (.pick u :: ts) k w'
  | check {m block next rescue w w₀ u w₁ own ts k w'} :
      Takes i (block .null) w own (.give u) w₀ →
      w.perform i (.check m) (.code fun v => (block v).run) = (w₁, .ok ()) →
      Takes i next w₁ ts k w' →
      Takes i (.call i (.check m) .code block next rescue) w (own ++ .verdict :: ts) k w'
  | group {op block next rescue w x w₀ u w₁ w₂ inner ts k w'} :
      w.handed? i (.logic op) = some (x, w₀) → Takes i (block x) w₀ inner (.give u) w₁ →
      w.perform i (.logic op) (.code fun v => (block v).run) = (w₂, .ok ()) →
      Takes i next w₂ ts k w' →
      Takes i (.call i (.logic op) .code block next rescue) w (.group inner :: ts) k w'

/-- A run goes on from the place it has come to. -/
theorem Takes.run {i : Nat} {code k : Code} {w w' : World} {ts : List Turn}
    (takes : Takes i code w ts k w') : code.run w = k.run w' := by
  induction takes with
  | here => rfl
  | load _ ih | save _ ih => exact ih
  | registered made _ ih | refused made _ ih => simpa only [Code.run, made] using ih
  | aside called _ _ ih | asideRaised called _ _ ih => simpa only [Code.run, called] using ih
  | operator called _ ih => simpa only [Code.run, Given.argument, called] using ih
  | pick _ _ called _ ih => simpa only [Code.run, Given.argument, called] using ih
  | check _ called _ _ ih => simpa only [Code.run, Given.argument, called] using ih
  | group _ _ called _ _ ih => simpa only [Code.run, Given.argument, called] using ih

/-- A matcher that is given a value takes one turn. -/
theorem Takes.judged {i : Nat} {m : Matcher} {u : Value} {next k : Code} {rescue : Raised → Code}
    {w w₁ w' : World} {ts : List Turn}
    (called : w.perform i (.check m) (.code fun _ => (Code.give u).run) = (w₁, .ok ()))
    (rest : Takes i next w₁ ts k w') :
    Takes i (.call i (.check m) .code (fun _ => .give u) next rescue) w (.verdict :: ts) k w' := by
  change Takes i _ w ([] ++ .verdict :: ts) k w'
  exact .check .here called rest

/-! ## What calls do to the subject -/

/-- An operator leaves the subject alone, and what is put aside. -/
theorem Clause.addOperator_keeps {c : Clause} {op : Operator} {step : Clause × List String}
    (issued : c.addOperator op = .ok step) :
    step.1.subject = c.subject ∧ step.1.restore = c.restore := by
  rcases c.addOperator_cases issued with ⟨_, _, same, _⟩ | ⟨_, _, _, _, _, same⟩ <;>
    exact same ▸ ⟨rfl, rfl⟩

namespace World

variable {w w₀ w₁ : World} {i : Nat} {b : Block} {u x : Value}

theorem setSubject_returned {o : Operation} {v : Value}
    (called : w.setSubject i o v = (w₁, .ok ())) :
    ∃ s, w₁.clause i = (w.clause i).setSubject o s v := by
  have kept := clause_capture w i v i
  unfold setSubject at called
  split at called
  · cases called
  · rename_i captured taken
    rw [taken] at kept
    cases called
    exact ⟨captured, by rw [clause_setClause_self, kept]⟩

theorem that_returned (ran : b .null w = (w₀, .ok u))
    (called : w.perform i .that (.code b) = (w₁, .ok ())) :
    (w₁.clause i).subject = some u ∧ (w₁.clause i).restore = none := by
  simp only [perform, produce, Argument.block?, ran, Outcome.andThen] at called
  obtain ⟨s, same⟩ := setSubject_returned called
  rw [same]
  exact ⟨rfl, rfl⟩

theorem pick_returned (present : (w.clause i).subject = some x) (ran : b x w = (w₀, .ok u))
    (called : w.perform i .pick (.code b) = (w₁, .ok ())) :
    (w₁.clause i).subject = some u ∧ (w₁.clause i).restore = some x := by
  simp only [perform, pick, present, produce, Argument.block?, ran, Outcome.andThen] at called
  split at called
  · rename_i w₂ _ set
    obtain ⟨s, same⟩ := setSubject_returned set
    cases called
    rw [clause_setClause_self, same]
    exact ⟨rfl, rfl⟩
  · cases called

theorem check_returned {m : Matcher} (ran : b .null w = (w₀, .ok u))
    (called : w.perform i (.check m) (.code b) = (w₁, .ok ())) :
    (w₁.clause i).subject = (w₀.clause i).restore.or (w₀.clause i).subject ∧
      (w₁.clause i).restore = none := by
  obtain ⟨s, matched, same⟩ := check_judged ran called
  rw [same]
  exact ⟨Clause.resolve_subject _ _ _, Clause.resolve_restore _ _ _⟩

theorem operator_returned {op : Operator}
    (called : w.perform i (.logic op) .absent = (w₁, .ok ())) :
    (w₁.clause i).subject = (w.clause i).subject ∧
      (w₁.clause i).restore = (w.clause i).restore := by
  simp only [perform, logic] at called
  split at called
  · cases called
  · rename_i step issued
    cases called
    rw [clause_update_self]
    exact Clause.addOperator_keeps issued

theorem group_returned {op : Operator} {v : Value} (handed : w.handed? i (.logic op) = some (v, w₀))
    (ran : b v w₀ = (w₁, .ok u)) {w₂ : World}
    (called : w.perform i (.logic op) (.code b) = (w₂, .ok ())) :
    (w₀.clause i).subject = (w.clause i).subject ∧ (w₀.clause i).restore = none ∧
      (w₂.clause i).subject = (w.clause i).restore.or (w₁.clause i).subject ∧
      (w₂.clause i).restore = none := by
  obtain ⟨step, issued, opened, same⟩ := perform_group handed b
  have ended : (endGroup i op step.1 (b v w₀)).2 = .ok () := by rw [← same, called]
  have returned := endGroup_returned ended
  rw [← same, called, ran] at returned
  obtain ⟨subject, restore⟩ := Clause.addOperator_keeps issued
  rw [opened, returned, ← subject, ← restore]
  exact ⟨rfl, rfl, Clause.resolve_subject _ _ _, Clause.resolve_restore _ _ _⟩

end World

/-! ## The subject of a chain -/

/-- A clause has a subject of which so much is known: where it is, and that what else it can come
    to be has a property. -/
def Custody.Holds (v : Value) (P : Value → Prop) (c : Clause) : Custody → Prop
  | .present => c.subject = some v ∧ c.restore = none
  | .aside => (∃ u, c.subject = some u ∧ P u) ∧ c.restore = some v
  | .lost => (∃ u, c.subject = some u ∧ P u) ∧ ∀ x, c.restore = some x → P x

namespace Custody.Holds

variable {v : Value} {P : Value → Prop} {c c' : Clause} {k : Custody}

/-- What is the subject now, if not what the chain began with. -/
theorem subject (holds : Holds v P c k) :
    ∃ u, c.subject = some u ∧ (u = v ∧ k = .present ∨ P u ∧ k ≠ .present) := by
  cases k with
  | present => exact ⟨v, holds.1, .inl ⟨rfl, rfl⟩⟩
  | aside | lost =>
      obtain ⟨u, subject, picked⟩ := holds.1
      exact ⟨u, subject, .inr ⟨picked, by simp⟩⟩

theorem same (holds : Holds v P c k) (subject : c'.subject = c.subject)
    (restore : c'.restore = c.restore) : Holds v P c' k := by
  cases k <;> simpa only [Holds, subject, restore] using holds

theorem verdict (holds : Holds v P c k) (subject : c'.subject = c.restore.or c.subject)
    (restore : c'.restore = none) : Holds v P c' (Turn.verdict.custody k) := by
  cases k with
  | present => exact ⟨by rw [subject, holds.2, Option.none_or, holds.1], restore⟩
  | aside => exact ⟨by rw [subject, holds.2, Option.some_or], restore⟩
  | lost =>
      obtain ⟨u, was, picked⟩ := holds.1
      refine ⟨?_, by simp [restore]⟩
      cases put : c.restore with
      | none => exact ⟨u, by rw [subject, put, Option.none_or, was], picked⟩
      | some x => exact ⟨x, by rw [subject, put, Option.some_or], holds.2 x put⟩

theorem pick {x u : Value} (holds : Holds v P c k) (present : c.subject = some x)
    (subject : c'.subject = some u) (restore : c'.restore = some x) (picked : P u) :
    Holds v P c' ((Turn.pick u).custody k) := by
  obtain ⟨y, was, known⟩ := holds.subject
  cases present.symm.trans was
  rcases known with ⟨rfl, rfl⟩ | ⟨before, other⟩
  · exact ⟨⟨u, subject, picked⟩, restore⟩
  · have lost : (Turn.pick u).custody k = .lost := by cases k <;> simp_all [Turn.custody]
    rw [lost]
    refine ⟨⟨u, subject, picked⟩, fun z put => ?_⟩
    cases restore.symm.trans put
    exact before

/-- A group begins with nothing put aside, and what is put aside around it comes back at its end. -/
theorem group {inner : Clause} {block : List Turn} (holds : Holds v P c k)
    (inside : ∀ x, c.subject = some x → Holds x P inner (Assay.custody .present block))
    (subject : c'.subject = c.restore.or inner.subject) (restore : c'.restore = none) :
    Holds v P c' ((Turn.group block).custody k) := by
  cases k with
  | present =>
      obtain ⟨u, ended, known⟩ := (inside v holds.1).subject
      have now : c'.subject = some u := by rw [subject, holds.2, Option.none_or, ended]
      simp only [Turn.custody]
      rcases known with ⟨rfl, kept⟩ | ⟨picked, other⟩
      · rw [if_pos kept]
        exact ⟨now, restore⟩
      · rw [if_neg other]
        exact ⟨⟨u, now, picked⟩, by simp [restore]⟩
  | aside => exact ⟨by rw [subject, holds.2, Option.some_or], restore⟩
  | lost =>
      obtain ⟨x, was, before⟩ := holds.1
      refine ⟨?_, by simp [restore]⟩
      cases put : c.restore with
      | some y => exact ⟨y, by rw [subject, put, Option.some_or], holds.2 y put⟩
      | none =>
          obtain ⟨u, ended, known⟩ := (inside x was).subject
          refine ⟨u, by rw [subject, put, Option.none_or, ended], ?_⟩
          rcases known with ⟨rfl, _⟩ | ⟨picked, _⟩
          · exact before
          · exact picked

end Custody.Holds

open Custody

/-- Turns of a chain leave its subject where `custody` says. -/
theorem Takes.holds {i : Nat} {code k : Code} {w w' : World} {ts : List Turn}
    (takes : Takes i code w ts k w') {v : Value} {P : Value → Prop} {c : Custody}
    (holds : c.Holds v P (w.clause i)) (all : ∀ u ∈ picked ts, P u) :
    (custody c ts).Holds v P (w'.clause i) := by
  -- What is known is generalized over the subject, as a group can begin with one that was picked.
  induction takes generalizing v c with
  | here => exact holds
  | load _ ih | save _ ih => exact ih holds all
  | @registered facet name _ _ w _ _ _ _ _ made _ ih
  | @refused facet name _ _ w _ _ _ _ _ made _ ih =>
      have kept := World.clause_register w facet name i
      rw [made] at kept
      exact ih (kept ▸ holds) all
  | aside _ kept _ ih | asideRaised _ kept _ ih => exact ih (kept ▸ holds) all
  | operator called _ ih =>
      obtain ⟨subject, restore⟩ := World.operator_returned called
      exact ih (holds.same subject restore) all
  | @pick block _ _ _ _ _ u _ _ _ _ present ran called _ ih =>
      obtain ⟨subject, restore⟩ :=
        World.pick_returned (b := fun v => (block v).run) present ran called
      exact ih (holds.pick present subject restore (all u (by simp [picked, Turn.picked])))
        fun x member => all x (by simp [picked, member])
  | @check _ block _ _ _ _ _ _ own ts _ _ takes called _ ihBlock ih =>
      obtain ⟨subject, restore⟩ :=
        World.check_returned (b := fun v => (block v).run) takes.run called
      have before := ihBlock holds fun x member => all x (by simp [picked_append, member])
      rw [custody_append]
      exact ih (before.verdict subject restore) fun x member =>
        all x (by simp [picked_append, picked, member])
  | @group _ block _ _ _ _ _ _ _ _ inner ts _ _ handed takes called _ ihBlock ih =>
      obtain ⟨begun, clear, subject, restore⟩ :=
        World.group_returned (b := fun v => (block v).run) handed takes.run called
      refine ih (holds.group (fun x was => ?_) subject restore) fun x member =>
        all x (by simp [picked, member])
      exact ihBlock (c := .present) ⟨begun.trans was, clear⟩ fun x member =>
        all x (by simp [picked, Turn.picked, member])

/-- After each verdict at the top of a chain its subject is the one the chain began with, unless
    that has been lost: a second `pick` has come before the verdict, or a group that nothing was put
    aside for has lost it or has ended with it put aside.  In that case the subject is one of the
    values that were picked. -/
theorem pick_is_undone {i : Nat} {block : Value → Code} {next k : Code} {w w₀ w₁ w' : World}
    {v : Value} {ts : List Turn} {t : Turn} (ran : (block .null).run w = (w₀, .ok v))
    (set : w.perform i .that (.code fun v => (block v).run) = (w₁, .ok ()))
    (takes : Takes i next w₁ (ts ++ [t]) k w') (judges : t.judges = true) :
    if custody .present (ts ++ [t]) = .lost then
      ∃ u ∈ picked (ts ++ [t]), (w'.clause i).subject = some u
    else (w'.clause i).subject = some v := by
  have begun : Holds v (· ∈ picked (ts ++ [t])) (w₁.clause i) .present :=
    World.that_returned (b := fun v => (block v).run) ran set
  have ended := takes.holds begun fun u member => member
  have put := t.custody_ne_aside judges (custody .present ts)
  have last : custody .present (ts ++ [t]) = t.custody (custody .present ts) := by
    rw [custody_append]
    rfl
  cases there : custody .present (ts ++ [t]) with
  | present =>
      rw [there] at ended
      exact ended.1
  | aside => exact absurd (last.symm.trans there) put
  | lost =>
      rw [there] at ended
      obtain ⟨u, subject, member⟩ := ended.1
      exact ⟨u, member, subject⟩

/-- A group may lose the value it began with if that was picked: the subject of the chain comes
    back after it. -/
theorem pick_is_undone_after_group :
    let block : Value → Code := fun _ => Code.calls 0 [(.pick, .code, fun _ => .give (.int 3)),
      (.pick, .code, fun _ => .give (.int 4)), (.check .is, .code, fun _ => .give (.int 4))]
    let next := Code.calls 0 [(.pick, .code, fun _ => .give (.int 2)), (.logic .and, .code, block)]
    let ts := [.pick (.int 2), .group [.pick (.int 3), .pick (.int 4), .verdict]]
    let w₁ := (World.start.perform 0 .that (.code fun _ => (Code.give (.int 1)).run)).1
    ∃ w', World.start.perform 0 .that (.code fun _ => (Code.give (.int 1)).run) = (w₁, .ok ()) ∧
      Takes 0 next w₁ ts (.give .null) w' ∧ custody .present ts ≠ .lost ∧
      (w'.clause 0).subject = some (.int 1) := by
  intro block next ts w₁
  have set : World.start.perform 0 .that (.code fun _ => (Code.give (.int 1)).run) = (w₁, .ok ()) :=
    Outcome.returned rfl
  have takes : ∃ w', Takes 0 next w₁ ts (.give .null) w' := by
    refine ⟨_, .pick (x := .int 1) ?_ rfl (Outcome.returned ?_) (.group rfl
      (.pick (x := .int 2) ?_ rfl (Outcome.returned ?_) (.pick (x := .int 3) ?_ rfl
        (Outcome.returned ?_) (.judged (Outcome.returned ?_) .here))) (Outcome.returned ?_) .here)⟩
    all_goals decide +kernel
  obtain ⟨w', takes⟩ := takes
  refine ⟨w', set, takes, by decide, ?_⟩
  exact @pick_is_undone 0 (fun _ => .give (.int 1)) _ _ _ _ _ _ _ [.pick (.int 2)] _ rfl set takes
    rfl

/-- It is not true that every verdict brings the subject back that a chain began with. -/
theorem second_pick_loses_subject : ¬ ∀ (i : Nat) (block : Value → Code) (next k : Code)
    (w w₀ w₁ w' : World) (v : Value) (ts : List Turn) (t : Turn),
    (block .null).run w = (w₀, .ok v) →
    w.perform i .that (.code fun v => (block v).run) = (w₁, .ok ()) →
    Takes i next w₁ (ts ++ [t]) k w' → t.judges = true → (w'.clause i).subject = some v := by
  intro claim
  let next := Code.calls 0 [(.pick, .code, fun _ => .give (.int 2)),
    (.pick, .code, fun _ => .give (.int 3)), (.check .is, .code, fun _ => .give (.int 3))]
  let w₁ := (World.start.perform 0 .that (.code fun _ => (Code.give (.int 1)).run)).1
  let ts : List Turn := [.pick (.int 2), .pick (.int 3), .verdict]
  have takes : ∃ w', Takes 0 next w₁ ts (.give .null) w' := by
    refine ⟨_, .pick (x := .int 1) ?_ rfl (Outcome.returned ?_) (.pick (x := .int 2) ?_ rfl
      (Outcome.returned ?_) (.judged (Outcome.returned ?_) .here))⟩
    all_goals decide +kernel
  obtain ⟨w', takes⟩ := takes
  have back := claim 0 (fun _ => .give (.int 1)) next (.give .null) World.start World.start w₁ w'
    (.int 1) [.pick (.int 2), .pick (.int 3)] .verdict rfl (Outcome.returned rfl) takes rfl
  have ended : (next.run w₁).1 = w' := congrArg Prod.fst takes.run
  rw [← ended] at back
  exact absurd back (by decide +kernel)

/-! ## A group after a `pick` -/

/-- A group that comes after a `pick`, with nothing but operators in between, brings back the
    subject that was picked from, whatever its block does to the clause.  Nothing is put aside any
    more. -/
theorem group_undoes_pick {i : Nat} {x : Value} {project block : Value → Code} {next k : Code}
    {op : Operator} {w w₁ w₂ w₃ : World} (present : (w.clause i).subject = some x)
    (pick : w.perform i .pick (.code fun v => (project v).run) = (w₁, .ok ()))
    (between : Takes i next w₁ [] k w₂)
    (group : w₂.perform i (.logic op) (.code fun v => (block v).run) = (w₃, .ok ())) :
    (w₃.clause i).subject = some x ∧ (w₃.clause i).restore = none := by
  have handed : w.handed? i .pick = some (x, w) := by simp [World.handed?, present]
  obtain ⟨_, _, _, u, begun, ran⟩ := World.returned_ran pick (by simp)
  cases handed.symm.trans begun
  obtain ⟨subject, restore⟩ := World.pick_returned present ran pick
  have aside : Custody.aside.Holds x (fun _ => True) (w₁.clause i) :=
    ⟨⟨u, subject, trivial⟩, restore⟩
  obtain ⟨_, kept⟩ := between.holds aside fun _ _ => trivial
  obtain ⟨_, _, _, _, begun, ran⟩ := World.returned_ran group (by simp)
  obtain ⟨_, _, back, clear⟩ := World.group_returned begun ran group
  exact ⟨by rw [back, kept, Option.some_or], clear⟩

/-- The block of a group may set a subject of its own, pick from it in a group within, and end with
    it put aside. -/
theorem group_undoes_pick_within_not :
    let inner : Value → Code := fun _ => Code.calls 0 [(.pick, .code, fun _ => .give (.int 7)),
      (.check .is, .code, fun _ => .give (.int 7))]
    let block : Value → Code := fun _ => Code.calls 0 [(.that, .code, fun _ => .give (.int 5)),
      (.pick, .code, fun _ => .give (.int 6)), (.logic .and, .code, inner),
      (.pick, .code, fun _ => .give (.int 8))]
    let w := (World.start.perform 0 .that (.code fun _ => (Code.give (.int 1)).run)).1
    let w₁ := (w.perform 0 .pick (.code fun _ => (Code.give (.int 2)).run)).1
    let w₂ := (w₁.perform 0 (.logic .not) .absent).1
    let w₃ := (w₂.perform 0 (.logic .not) (.code fun v => (block v).run)).1
    (w.clause 0).subject = some (.int 1) ∧
      w.perform 0 .pick (.code fun _ => (Code.give (.int 2)).run) = (w₁, .ok ()) ∧
      Takes 0 (Code.calls 0 [(.logic .not, .absent, block)]) w₁ [] (.give .null) w₂ ∧
      w₂.perform 0 (.logic .not) (.code fun v => (block v).run) = (w₃, .ok ()) ∧
      (w₃.clause 0).subject = some (.int 1) ∧ (w₃.clause 0).restore = none := by
  intro inner block w w₁ w₂ w₃
  have present : (w.clause 0).subject = some (.int 1) := rfl
  have pick : w.perform 0 .pick (.code fun _ => (Code.give (.int 2)).run) = (w₁, .ok ()) :=
    Outcome.returned rfl
  have between : Takes 0 (Code.calls 0 [(.logic .not, .absent, block)]) w₁ [] (.give .null) w₂ :=
    .operator (Outcome.returned rfl) .here
  have group : w₂.perform 0 (.logic .not) (.code fun v => (block v).run) = (w₃, .ok ()) :=
    Outcome.returned (by decide +kernel)
  exact ⟨present, pick, between, group,
    group_undoes_pick present pick between group⟩

end Assay
