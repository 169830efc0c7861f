import Assay.Proofs.Clause.Standing
import Assay.Proofs.Facet.Parties
import Mathlib.Algebra.BigOperators.Group.List.Basic

/-! # Sums of summaries

Facets are kept in groups, and groups in larger groups.  A summary of a group is added up from that
of its own facets and those of the groups in it, in whatever order and with whatever brackets.  What
comes out counts every facet once: it is the summary of all facets together.
-/

namespace Assay

/-! ## What a facet counts as -/

theorem rollUp_eq (exceptional : Bool) (statuses : List Status) : rollUp exceptional statuses =
    if exceptional = true ∨ .exception ∈ statuses then .exception
    else if statuses = [] then .notImplemented
    else if ∀ s ∈ statuses, s = .pass then .pass
    else if ∀ s ∈ statuses, s = .notImplemented then .notImplemented
    else .fail := by
  simp [rollUp]

theorem rollUp_eq_pass {exceptional : Bool} {statuses : List Status} :
    rollUp exceptional statuses = .pass ↔
      exceptional = false ∧ statuses ≠ [] ∧ ∀ s ∈ statuses, s = .pass := by
  rw [rollUp_eq]
  split_ifs <;> grind

theorem rollUp_eq_notImplemented {exceptional : Bool} {statuses : List Status} :
    rollUp exceptional statuses = .notImplemented ↔
      exceptional = false ∧ ∀ s ∈ statuses, s = .notImplemented := by
  rw [rollUp_eq]
  cases statuses with
  | nil => cases exceptional <;> simp
  | cons first rest =>
      have member : first ∈ first :: rest := List.mem_cons_self
      split_ifs <;> grind

namespace FacetResult

variable {f : FacetResult}

/-- There are tests, all of them pass, and no exception has ended one. -/
def Passes (f : FacetResult) : Prop :=
  f.exceptional = false ∧ f.tests ≠ [] ∧ ∀ test ∈ f.tests, test.2.status = .pass

/-- No test has come to anything, and no exception has ended one. -/
def Idle (f : FacetResult) : Prop :=
  f.exceptional = false ∧ ∀ test ∈ f.tests, test.2.status = .notImplemented

instance : DecidablePred Passes := fun _ => inferInstanceAs (Decidable (_ ∧ _ ∧ _))

instance : DecidablePred Idle := fun _ => inferInstanceAs (Decidable (_ ∧ _))

theorem status_eq_pass : f.status = .pass ↔ f.Passes := by
  simp only [status, rollUp_eq_pass, Passes, ne_eq, List.map_eq_nil_iff, List.forall_mem_map]

theorem status_eq_notImplemented : f.status = .notImplemented ↔ f.Idle := by
  simp only [status, rollUp_eq_notImplemented, Idle, List.forall_mem_map]

theorem status_ne_set : f.status ≠ .set := by
  unfold status rollUp
  split_ifs <;> simp

end FacetResult

/-- What a test can amount to: its clause was made anew and then called by code. -/
def TestResult.Reached (t : TestResult) : Prop :=
  ∃ (code : Code) (w w' : World) (i : Nat) (o : Options),
    w.clause i = { options := o } ∧ code.Visits w w' ∧ t = (w'.clause i).result

/-- Setting a subject is no outcome of a test. -/
theorem TestResult.Reached.status_ne_set {t : TestResult} (reached : t.Reached) :
    t.status ≠ .set := by
  obtain ⟨code, w, w', i, o, fresh, visits, rfl⟩ := reached
  have line : (w'.clause i).InLine := Clause.inLine_visits visits (fresh ▸ Clause.InLine.fresh o)
  rw [line.status]
  exact standing_ne_set _

/-! ## Sums -/

namespace Summary

instance : Zero Summary := ⟨{}⟩

theorem add_eq (s t : Summary) : s + t =
    ⟨s.passed + t.passed, s.failed + t.failed, s.notImplemented + t.notImplemented⟩ := rfl

instance : AddCommMonoid Summary where
  add_assoc s t u := by simp only [add_eq, Int.add_assoc]
  zero_add s := by simp [add_eq, show (0 : Summary) = {} from rfl]
  add_zero s := by simp [add_eq, show (0 : Summary) = {} from rfl]
  add_comm s t := by simp only [add_eq, Int.add_comm]
  nsmul := nsmulRec

theorem ofFacets_append (fs gs : List FacetResult) :
    ofFacets (fs ++ gs) = ofFacets fs + ofFacets gs := by
  simp only [ofFacets, ofStatuses, add_eq, List.map_append, List.count_append, Int.natCast_add]
  congr 1
  omega

theorem ofFacets_perm {fs gs : List FacetResult} (perm : fs.Perm gs) : ofFacets fs = ofFacets gs :=
  ofStatuses_perm (perm.map _)

theorem ofFacets_cons (f : FacetResult) (rest : List FacetResult) :
    ofFacets (f :: rest) = ofFacets [f] + ofFacets rest := ofFacets_append [f] rest

section Counts

variable (fs : List FacetResult)

theorem count_status {s : Status} {P : FacetResult → Prop} [DecidablePred P]
    (means : ∀ {f : FacetResult}, f.status = s ↔ P f) :
    (fs.map FacetResult.status).count s = fs.countP (fun f => decide (P f)) := by
  have same : (fun f : FacetResult => f.status == s) = fun f => decide (P f) := by
    funext f
    rw [Bool.eq_iff_iff, beq_iff_eq, means, decide_eq_true_iff]
  rw [← same, List.count, List.countP_map, Function.comp_def]

theorem passed_ofFacets : (ofFacets fs).passed = fs.countP (·.Passes) :=
  congrArg _ (count_status fs FacetResult.status_eq_pass)

theorem notImplemented_ofFacets : (ofFacets fs).notImplemented = fs.countP (·.Idle) :=
  congrArg _ (count_status fs FacetResult.status_eq_notImplemented)

/-- Every status that a facet can have is counted. -/
theorem total_ofFacets : (ofFacets fs).total = fs.length := by
  induction fs with
  | nil => rfl
  | cons f rest ih =>
      have one : (ofFacets [f]).total = 1 := by
        have counted := f.status_ne_set
        simp only [ofFacets, List.map_cons, List.map_nil]
        cases status : f.status <;> first | rfl | exact absurd status counted
      have both : (ofFacets [f] + ofFacets rest).total =
          (ofFacets [f]).total + (ofFacets rest).total := by
        simp only [total, ran, add_eq]
        omega
      rw [ofFacets_cons, both, one, ih, List.length_cons]
      omega

theorem failed_ofFacets : (ofFacets fs).failed = fs.countP fun f => ¬ f.Passes ∧ ¬ f.Idle := by
  have parts : fs.length = fs.countP (·.Passes) + fs.countP (·.Idle) +
      fs.countP fun f => ¬ f.Passes ∧ ¬ f.Idle := by
    induction fs with
    | nil => rfl
    | cons f rest ih =>
        have apart : ¬ (f.Passes ∧ f.Idle) := by
          rw [← FacetResult.status_eq_pass, ← FacetResult.status_eq_notImplemented]
          rintro ⟨passes, idle⟩
          simp [passes] at idle
        simp only [List.countP_cons, List.length_cons]
        by_cases passes : f.Passes <;> by_cases idle : f.Idle <;> simp_all <;> omega
  have whole := total_ofFacets fs
  rw [total, ran, passed_ofFacets, notImplemented_ofFacets] at whole
  omega

end Counts

/-- Adding up summaries two at a time, in any order and with any brackets. -/
inductive Added : List Summary → Summary → Prop where
  | one (s : Summary) : Added [s] s
  | add {ss ts us : List Summary} {s t : Summary} :
      Added ss s → Added ts t → us.Perm (ss ++ ts) → Added us (s + t)

theorem Added.eq_sum {ss : List Summary} {s : Summary} (added : Added ss s) : s = ss.sum := by
  induction added with
  | one s => simp
  | add _ _ perm first second => rw [perm.sum_eq, List.sum_append, ← first, ← second]

theorem exists_added (s : Summary) (ss : List Summary) : ∃ t, Added (s :: ss) t := by
  induction ss generalizing s with
  | nil => exact ⟨s, .one s⟩
  | cons s' rest ih =>
      obtain ⟨t, added⟩ := ih s'
      exact ⟨s + t, .add (.one s) added (.refl _)⟩

end Summary

/-! ## Groups -/

/-- Facets in a group, with the groups that it holds. -/
inductive Grouping where
  | group (facets : List FacetResult) (groups : List Grouping)

namespace Grouping

mutual
/-- Every facet of a group and the groups in it. -/
def facets : Grouping → List FacetResult
  | .group own groups => own ++ facetsOfAll groups
def facetsOfAll : List Grouping → List FacetResult
  | [] => []
  | g :: rest => g.facets ++ facetsOfAll rest
end

mutual
/-- What a group adds up to, from the inside out.  A group without facets of its own need not be
    given a summary. -/
inductive Sums : Grouping → Summary → Prop where
  | group {own : List FacetResult} {groups : List Grouping} {ss : List Summary} {s : Summary} :
      SumsOfAll groups ss → Summary.Added (.ofFacets own :: ss) s → Sums (.group own groups) s
  | bare {groups : List Grouping} {ss : List Summary} {s : Summary} :
      SumsOfAll groups ss → Summary.Added ss s → Sums (.group [] groups) s
/-- What each of several groups adds up to. -/
inductive SumsOfAll : List Grouping → List Summary → Prop where
  | nil : SumsOfAll [] []
  | cons {g : Grouping} {rest : List Grouping} {s : Summary} {ss : List Summary} :
      Sums g s → SumsOfAll rest ss → SumsOfAll (g :: rest) (s :: ss)
end

mutual
theorem exists_sums : ∀ g : Grouping, ∃ s, g.Sums s
  | .group own groups =>
      have ⟨ss, each⟩ := exists_sumsOfAll groups
      have ⟨s, added⟩ := Summary.exists_added (.ofFacets own) ss
      ⟨s, .group each added⟩
theorem exists_sumsOfAll : ∀ groups : List Grouping, ∃ ss, SumsOfAll groups ss
  | [] => ⟨[], .nil⟩
  | g :: rest =>
      have ⟨s, first⟩ := exists_sums g
      have ⟨ss, later⟩ := exists_sumsOfAll rest
      ⟨s :: ss, .cons first later⟩
end

mutual
theorem Sums.eq_ofFacets {g : Grouping} {s : Summary} : g.Sums s → s = .ofFacets g.facets
  | .group each added => by
      rw [added.eq_sum, List.sum_cons, each.sum_eq, facets, Summary.ofFacets_append]
  | .bare each added => by
      rw [added.eq_sum, each.sum_eq, facets, List.nil_append]
theorem SumsOfAll.sum_eq {groups : List Grouping} {ss : List Summary} :
    SumsOfAll groups ss → ss.sum = .ofFacets (facetsOfAll groups)
  | .nil => rfl
  | .cons first later => by
      rw [List.sum_cons, first.eq_ofFacets, later.sum_eq, facetsOfAll, Summary.ofFacets_append]
end

/-- However the summaries of groups are added up, every facet of the groups counts once: as passed
    if it has tests, all of them pass and no exception has ended one; as not implemented if no test
    has come to anything; else as failed.  So it is the summary of all facets together, in whatever
    order.  No test that code can bring about has any outcome that is not counted. -/
theorem sums_facets (g : Grouping) :
    (∃ s, g.Sums s) ∧ ∀ s, g.Sums s →
      (∀ all : List FacetResult, all.Perm g.facets → s = Summary.ofFacets all) ∧
      s.total = g.facets.length ∧
      s.passed = g.facets.countP (·.Passes) ∧
      s.notImplemented = g.facets.countP (·.Idle) ∧
      s.failed = g.facets.countP (fun f => ¬ f.Passes ∧ ¬ f.Idle) ∧
      ∀ f ∈ g.facets, (∀ test ∈ f.tests, test.2.Reached) →
        ∀ test ∈ f.tests, test.2.status ≠ .set := by
  refine ⟨exists_sums g, fun s sums => ?_⟩
  obtain rfl := sums.eq_ofFacets
  exact ⟨fun all perm => (Summary.ofFacets_perm perm).symm, Summary.total_ofFacets _,
    Summary.passed_ofFacets _, Summary.notImplemented_ofFacets _, Summary.failed_ofFacets _,
    fun f _ reached test inside => (reached test inside).status_ne_set⟩

end Grouping

end Assay
