import Assay.Proofs.Facet.Registration
import Assay.Proofs.Related
import Mathlib

/-! # Reports on facets

A report files what it has to say on the tests of a facet under their names as they are written.
Names that are different may be written alike, as the number 1 and the text of its digit are.  Then
the report speaks of the later test only.
-/

namespace Assay

/-! ## Maps made of pairs -/

namespace Entries

variable {κ ν : Type}

/-- The last pair is entered last. -/
theorem ofList_concat (same : κ → κ → Bool) (ps : List (κ × ν)) (p : κ × ν) :
    ofList same (ps ++ [p]) = insert same p.1 p.2 (ofList same ps) := by
  simp [ofList, insertAll]

variable [BEq κ] [LawfulBEq κ] {key : κ} {value : ν} {e : κ × ν} {es ps : List (κ × ν)}

/-- A key that is not there comes last. -/
theorem insert_new (new : key ∉ es.map (·.1)) :
    insert (· == ·) key value es = es ++ [(key, value)] := by
  induction es with
  | nil => rfl
  | cons e rest ih =>
      simp only [List.map_cons, List.mem_cons, not_or] at new
      simp [insert, Ne.symm new.1, ih new.2]

/-- A key that is there keeps its place. -/
theorem keys_insert_old (old : key ∈ es.map (·.1)) :
    (insert (· == ·) key value es).map (·.1) = es.map (·.1) := by
  induction es with
  | nil => cases old
  | cons e rest ih =>
      by_cases here : e.1 = key
      · simp [insert, here]
      · simp only [List.map_cons, List.mem_cons] at old
        simp [insert, here, ih (old.resolve_left (Ne.symm here))]

theorem nodup_insert (nodup : (es.map (·.1)).Nodup) :
    ((insert (· == ·) key value es).map (·.1)).Nodup := by
  by_cases old : key ∈ es.map (·.1)
  · rwa [keys_insert_old old]
  · rw [insert_new old, List.map_append, List.nodup_append]
    refine ⟨nodup, by simp, fun k inside k' last same => old ?_⟩
    rwa [same, List.mem_singleton.mp last] at inside

theorem mem_insert (nodup : (es.map (·.1)).Nodup) :
    e ∈ insert (· == ·) key value es ↔ e = (key, value) ∨ e ∈ es ∧ e.1 ≠ key := by
  induction es with
  | nil => simp [insert]
  | cons first rest ih =>
      simp only [List.map_cons, List.nodup_cons] at nodup
      by_cases here : first.1 = key
      · subst here
        have later (inside : e ∈ rest) : e.1 ≠ first.1 := fun same =>
          nodup.1 (same ▸ List.mem_map_of_mem inside)
        simp only [insert, beq_self_eq_true, if_true, List.mem_cons]
        grind
      · simp only [insert, beq_iff_eq, here, if_false, List.mem_cons, ih nodup.2]
        grind

theorem nodup_ofList (ps : List (κ × ν)) : ((ofList (· == ·) ps).map (·.1)).Nodup := by
  induction ps using List.reverseRecOn with
  | nil => simp [ofList, insertAll]
  | append_singleton ps p ih =>
      rw [ofList_concat]
      exact nodup_insert ih

/-- Of the pairs with one key the last one counts. -/
theorem mem_ofList : e ∈ ofList (· == ·) ps ↔
    ∃ before after, ps = before ++ e :: after ∧ ∀ p ∈ after, p.1 ≠ e.1 := by
  induction ps using List.reverseRecOn with
  | nil => simp [ofList, insertAll]
  | append_singleton ps p ih =>
      rw [ofList_concat, mem_insert (nodup_ofList ps), ih]
      constructor
      · rintro (rfl | ⟨⟨before, after, rfl, others⟩, other⟩)
        · exact ⟨ps, [], rfl, by simp⟩
        · refine ⟨before, after ++ [p], by simp, ?_⟩
          simpa [or_imp, forall_and, Ne.symm other] using fun k v => others (k, v)
      · rintro ⟨before, after, whole, others⟩
        rcases List.eq_nil_or_concat' after with rfl | ⟨after, q, rfl⟩
        · cases List.append_inj_right' whole rfl
          exact .inl rfl
        · rw [← List.cons_append, ← List.append_assoc] at whole
          obtain ⟨rfl, last⟩ := List.append_inj' whole rfl
          cases last
          exact .inr ⟨⟨before, after, rfl, fun x inside => others x (by simp [inside])⟩,
            Ne.symm (others p (by simp))⟩

/-- Pairs with different keys are all entered, in their order. -/
theorem ofList_of_nodup (nodup : (ps.map (·.1)).Nodup) : ofList (· == ·) ps = ps := by
  induction ps using List.reverseRecOn with
  | nil => rfl
  | append_singleton ps p ih =>
      rw [List.map_append, List.nodup_append] at nodup
      rw [ofList_concat, ih nodup.1, insert_new]
      exact fun inside => nodup.2.2 p.1 inside p.1 (by simp) rfl

/-- Pairs that share a key are not all entered. -/
theorem length_ofList_lt (double : ¬ (ps.map (·.1)).Nodup) :
    (ofList (· == ·) ps).length < ps.length := by
  have nodup := nodup_ofList ps
  have within : (ofList (· == ·) ps).map (·.1) ⊆ ps.map (·.1) := by
    refine List.map_subset _ fun e inside => ?_
    obtain ⟨before, after, rfl, _⟩ := mem_ofList.mp inside
    simp
  refine Nat.lt_of_not_le fun long => double ?_
  have all := (nodup.subperm within).perm_of_length_le (by simpa using long)
  exact all.nodup_iff.mp nodup

end Entries

/-! ## Names as they are written -/

namespace TestName

variable {t u : TestName}

/-- A number is not written as a truth value is. -/
theorem display_number_ne {k : Int} {b : Bool} : (number k).display ≠ (flag b).display := by
  intro same
  have unread : (flag b).display.toInt? = none := by cases b <;> cbv
  have read : (number k).display.toInt? = some k := Int.toInt?_repr k
  rw [same, unread] at read
  cases read

/-- Names that are no texts are written differently. -/
theorem eq_of_display {k l : Int} (left : t.number? = some k) (right : u.number? = some l)
    (same : t.display = u.display) : t = u := by
  cases t with
  | text s => cases left
  | number m =>
      cases u with
      | text s => cases right
      | number n => exact congrArg number (Int.repr_inj.mp same)
      | flag b => exact absurd same display_number_ne
  | flag a =>
      cases u with
      | text s => cases right
      | number n => exact absurd same.symm display_number_ne
      | flag b => revert same; cases a <;> cases b <;> decide

end TestName

namespace Facet

variable {σ τ : Type} {f : Facet τ}

/-- A text is the name of a test and at the same time how the name of another test is written. -/
def Ambiguous (f : Facet τ) : Prop :=
  ∃ e ∈ f.tests, ∃ e' ∈ f.tests, e.1 = .text e'.1.display ∧ e'.1 ≠ e.1

theorem NamedApart.map (apart : f.NamedApart) (g : τ → σ) : (f.map g).NamedApart :=
  List.pairwise_map.mpr apart

/-- Different names are written differently, as long as no text reads like another name. -/
theorem NamedApart.nodup_displays (apart : f.NamedApart) :
    (f.tests.map (·.1.display)).Nodup ↔ ¬ f.Ambiguous := by
  constructor
  · rintro nodup ⟨e, inside, e', inside', same, other⟩
    have displayed : e.1.display = e'.1.display := by rw [same]; rfl
    exact other (congrArg (·.1) (List.inj_on_of_nodup_map nodup inside inside' displayed)).symm
  · intro clear
    refine List.pairwise_map.mpr (apart.imp_of_mem fun {e e'} inside inside' apart same => ?_)
    have different : e.1 ≠ e'.1 := fun equal => by simp [equal] at apart
    cases left : e.1 with
    | text s =>
        refine clear ⟨e, inside, e', inside', ?_, different.symm⟩
        rw [← same, left]
        rfl
    | number m | flag b =>
        cases right : e'.1 with
        | text s =>
            refine clear ⟨e', inside', e, inside, ?_, different⟩
            rw [same, right]
            rfl
        | number n | flag c =>
            exact different (TestName.eq_of_display (by rw [left]; rfl) (by rw [right]; rfl) same)

end Facet

/-! ## Reports -/

theorem mapM_eq_ok {α β ε : Type} {f : α → Except ε β} {xs : List α} {ys : List β} :
    xs.mapM f = .ok ys ↔ List.Forall₂ (fun x y => f x = .ok y) xs ys := by
  induction xs generalizing ys with
  | nil => simp [pure, Except.pure, eq_comm]
  | cons x xs ih =>
      simp only [List.mapM_cons, List.forall₂_cons_left_iff, ← ih]
      cases f x <;> cases xs.mapM f <;> simp [bind, Except.bind, pure, Except.pure, eq_comm]

/-- An entry of a report tells of a test, under its name as it is written. -/
def FacetReport.Tells (m : Memory) (test : TestName × TestResult) (entry : String × TestReport) :
    Prop :=
  entry.1 = test.1.display ∧ test.2.report m = .ok entry.2

theorem FacetReport.entry_eq_ok {m : Memory} {test : TestName × TestResult}
    {e : String × TestReport} : entry m test = .ok e ↔ test.1.isWritable ∧ Tells m test e := by
  by_cases writable : test.1.isWritable
  · cases told : test.2.report m <;>
      simp [entry, Tells, TestName.written_of_writable, writable, told, bind, Except.bind, pure,
        Except.pure, Prod.ext_iff, eq_comm]
  · simp [entry, TestName.written_of_not_writable, writable, bind, Except.bind]

namespace FacetResult

variable {f : FacetResult} {m : Memory} {r : FacetReport}

/-- A report files one entry for each test. -/
theorem report_eq_ok : f.report m = .ok r ↔ (∀ test ∈ f.tests, test.1.isWritable) ∧ ∃ entries,
    List.Forall₂ (FacetReport.Tells m) f.tests entries ∧
      r = { name := f.name, status := f.status, tests := Entries.ofList (· == ·) entries } := by
  have filed (entries : List (String × TestReport)) :
      f.tests.mapM (FacetReport.entry m) = .ok entries ↔
        (∀ test ∈ f.tests, test.1.isWritable) ∧
          List.Forall₂ (FacetReport.Tells m) f.tests entries := by
    simp only [mapM_eq_ok, FacetReport.entry_eq_ok, List.forall₂_and_left]
  simp only [report, ← exists_and_left, ← and_assoc, ← filed]
  cases f.tests.mapM (FacetReport.entry m) with
  | error e => simp [Except.map]
  | ok entries => simp [Except.map, eq_comm]

/-- There is a report if the name of each test can be written and there is a report on the test. -/
theorem exists_report : (∃ r, f.report m = .ok r) ↔
    ∀ test ∈ f.tests, test.1.isWritable ∧ ∃ shown, test.2.report m = .ok shown := by
  have told (test : TestName × TestResult) :
      (∃ entry, FacetReport.Tells m test entry) ↔ ∃ shown, test.2.report m = .ok shown :=
    ⟨fun ⟨entry, _, shown⟩ => ⟨_, shown⟩, fun ⟨shown, told⟩ => ⟨(_, shown), rfl, told⟩⟩
  simp only [forall_and, ← told, ← exists_forall₂, report_eq_ok]
  exact ⟨fun ⟨_, writable, entries, related, _⟩ => ⟨writable, entries, related⟩,
    fun ⟨writable, entries, related⟩ => ⟨_, writable, entries, related, rfl⟩⟩

theorem keys_of_tells {tests : List (TestName × TestResult)} {entries : List (String × TestReport)}
    (related : List.Forall₂ (FacetReport.Tells m) tests entries) :
    entries.map (·.1) = tests.map (·.1.display) := by
  induction related with
  | nil => rfl
  | cons here _ ih => rw [List.map_cons, List.map_cons, ih, here.1]

/-- Of the tests whose names are written alike the report tells of the last. -/
theorem mem_report (reported : f.report m = .ok r) (entry : String × TestReport) :
    entry ∈ r.tests ↔ ∃ before test after, f.tests = before ++ test :: after ∧
      FacetReport.Tells m test entry ∧ ∀ later ∈ after, later.1.display ≠ entry.1 := by
  obtain ⟨_, entries, related, rfl⟩ := report_eq_ok.mp reported
  have apart {after : List (TestName × TestResult)} {after' : List (String × TestReport)}
      (later : List.Forall₂ (FacetReport.Tells m) after after') :
      (∀ p ∈ after', p.1 ≠ entry.1) ↔ ∀ later ∈ after, later.1.display ≠ entry.1 := by
    calc (∀ p ∈ after', p.1 ≠ entry.1)
      _ ↔ ∀ k ∈ after'.map (·.1), k ≠ entry.1 := by simp only [List.forall_mem_map]
      _ ↔ ∀ k ∈ after.map (·.1.display), k ≠ entry.1 := by rw [keys_of_tells later]
      _ ↔ ∀ later ∈ after, later.1.display ≠ entry.1 := by simp only [List.forall_mem_map]
  rw [Entries.mem_ofList]
  constructor
  · rintro ⟨before, after, rfl, others⟩
    obtain ⟨before', test, after', same, tells, later⟩ := forall₂_split related
    exact ⟨before', test, after', same, tells, (apart later).mp others⟩
  · rintro ⟨before, test, after, same, tells, others⟩
    rw [same] at related
    obtain ⟨before', entry', after', rfl, tells', later⟩ := forall₂_split related.flip
    obtain rfl : entry' = entry :=
      Prod.ext (tells'.1.trans tells.1.symm) (Except.ok.inj (tells'.2.symm.trans tells.2))
    exact ⟨before', after', rfl, (apart later.flip).mpr others⟩

end FacetResult

/-- Whatever code has run on a facet without tests, there is a report on the facet if each of its
    tests has a name that can be written and a report of its own.  It has one entry for each test,
    in their order, unless a text that is the name of a test is how the name of another one is
    written.  Then there are fewer entries than tests: of the tests that are written alike only the
    last has one. -/
theorem report_keeps_tests {code : Code} {w : World} {n : Nat} (empty : (w.facet n).tests = [])
    (m : Memory) :
    let f := (code.run w).1.facetResult n
    ((∃ r, f.report m = .ok r) ↔
      ∀ test ∈ f.tests, test.1.isWritable ∧ ∃ shown, test.2.report m = .ok shown) ∧
    ∀ r, f.report m = .ok r →
      (¬ f.Ambiguous → List.Forall₂ (FacetReport.Tells m) f.tests r.tests) ∧
      (f.Ambiguous → r.tests.length < f.tests.length) ∧
      (r.tests.map (·.1)).Nodup ∧
      ∀ entry, entry ∈ r.tests ↔ ∃ before test after, f.tests = before ++ test :: after ∧
        FacetReport.Tells m test entry ∧ ∀ later ∈ after, later.1.display ≠ entry.1 := by
  intro f
  have begun : (w.facet n).NamedApart := by
    rw [Facet.NamedApart, empty]
    exact .nil
  have apart : f.NamedApart := ((code.registers_run n w).apart begun).map _
  refine ⟨FacetResult.exists_report, fun r reported => ?_⟩
  have members := FacetResult.mem_report reported
  obtain ⟨_, entries, related, rfl⟩ := FacetResult.report_eq_ok.mp reported
  have displays := apart.nodup_displays
  rw [← FacetResult.keys_of_tells related] at displays
  refine ⟨fun clear => ?_, fun ambiguous => ?_, Entries.nodup_ofList entries, members⟩
  · rw [Entries.ofList_of_nodup (displays.mpr clear)]
    exact related
  · rw [related.length_eq]
    exact Entries.length_ofList_lt fun nodup => displays.mp nodup ambiguous

/-- A test without a name and one that is named by a letter both have their entries. -/
theorem report_keeps_tests_letter :
    let f := ((Code.registerAll 0 [none, some (.text "a")]).run World.start).1.facetResult 0
    ∃ r, f.report World.start.memory = .ok r ∧ r.tests.map (·.1) = ["1", "a"] ∧
      List.Forall₂ (FacetReport.Tells World.start.memory) f.tests r.tests := by
  intro f
  have keys : ((f.report World.start.memory).toOption.map fun r => r.tests.map (·.1)) =
      some ["1", "a"] := by decide +kernel
  have clear : ¬ f.Ambiguous := by
    unfold Facet.Ambiguous
    decide +kernel
  cases reported : f.report World.start.memory with
  | error e => simp [reported, Except.toOption] at keys
  | ok r =>
      have empty : (World.start.facet 0).tests = [] := rfl
      have all := ((report_keeps_tests empty World.start.memory).2 r reported).1 clear
      exact ⟨r, rfl, by simpa [reported, Except.toOption] using keys, all⟩

/-- It is not true that a report has an entry for each test that has been registered. -/
theorem report_loses_test : ¬ ∀ (names : List (Option TestName)) (m : Memory) (r : FacetReport),
    let o := (Code.registerAll 0 names).run World.start
    o.2 = .ok .null → (o.1.facetResult 0).report m = .ok r →
      r.tests.length = (o.1.facetResult 0).tests.length := by
  intro claim
  let o := (Code.registerAll 0 [none, some (.text "1")]).run World.start
  have counted : (((o.1.facetResult 0).report World.start.memory).toOption.map
      fun r => r.tests.length) = some 1 := by decide +kernel
  have ended : o.2 = .ok .null := by decide +kernel
  cases reported : (o.1.facetResult 0).report World.start.memory with
  | error e => simp [reported, Except.toOption] at counted
  | ok r =>
      have all : (o.1.facetResult 0).tests.length = 2 := by decide +kernel
      have length := (claim _ World.start.memory r ended reported).trans all
      simp only [reported, Except.toOption, Option.map_some, Option.some.injEq] at counted
      exact absurd (counted.symm.trans length) (by decide)

end Assay
