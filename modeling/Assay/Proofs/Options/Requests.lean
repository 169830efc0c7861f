import Assay.Options.Request
import Assay.Proofs.Options.Loading
import Mathlib.Data.List.Induction

/-! # What requests leave shown

A request decides whether a condition is shown, or it has nothing to do with it.  One that gives a
word for no level, or a flag or a condition that the level does not know, is refused as a whole.  So
a condition is shown as the last accepted request decided that had to do with it, and tracing
follows the account that this makes of all levels.
-/

namespace Assay

/-! ## Words for levels and conditions -/

theorem Category.ofName?_eq_some {word : String} {c : Category} :
    Category.ofName? word = some c ↔ word = c.name := by
  constructor
  · intro found
    simpa [BEq.comm] using (List.find?_some found).symm
  · rintro rfl
    cases c <;> decide

theorem Condition.name_inj {d e : Condition} : d.name = e.name ↔ d = e := by
  refine ⟨fun same => ?_, congrArg _⟩
  cases d <;> cases e <;> first | rfl | exact absurd same (by decide)

theorem Category.name_inj {c c' : Category} : c.name = c'.name ↔ c = c' := by
  refine ⟨fun same => ?_, congrArg _⟩
  cases c <;> cases c' <;> first | rfl | exact absurd same (by decide)

namespace Options

theorem category_eq_ok {word : String} {c : Category} : category word = .ok c ↔ word = c.name := by
  rw [← Category.ofName?_eq_some, category]
  cases Category.ofName? word <;> simp

/-- Only a word that is no name of a level is refused. -/
theorem ne_name_of_category {word : String} {e : OptionsError} (refused : category word = .error e)
    (c : Category) : word ≠ c.name := fun same => by
  simp [category_eq_ok.mpr same] at refused

theorem find?_condition {c : Category} {word : String} {d : Condition} :
    c.conditions.find? (·.name == word) = some d ↔ d ∈ c.conditions ∧ word = d.name := by
  constructor
  · intro found
    exact ⟨List.mem_of_find?_eq_some found, by simpa [BEq.comm] using (List.find?_some found).symm⟩
  · rintro ⟨inside, rfl⟩
    cases found : c.conditions.find? (·.name == d.name) with
    | none => simpa using List.find?_eq_none.mp found d inside
    | some e =>
        have same : e.name = d.name := by simpa using List.find?_some found
        rw [Condition.name_inj.mp same]

namespace Request

/-! ## One request -/

/-- The flags that a request for a level is given. -/
def given (flags : Option String) : List Char := (flags.getD "").toList

/-- There is no level of the name, or the level does not know what is asked of it. -/
def Unknown : Request → Prop
  | .trace level flags => ∀ c : Category, level = c.name → ∃ f ∈ given flags, f ∉ c.flags
  | .condition level word _ => ∀ c : Category, level = c.name → ∀ d ∈ c.conditions, word ≠ d.name
  | .traceAll => False

/-- Whether a request is about a level. -/
def About (c : Category) : Request → Prop
  | .trace level _ | .condition level _ _ => level = c.name
  | .traceAll => True

/-- Whether a request shows or hides a condition of a level, or has nothing to do with it. -/
def decision (c : Category) (d : Condition) : Request → Option Bool
  | .trace level flags =>
    if level = c.name ∧ (given flags).all c.flags.contains then some ((given flags).contains d.flag)
    else none
  | .condition level word shown => if level = c.name ∧ word = d.name then some shown else none
  | .traceAll => some true

/-- Whether a request has changed nothing but what the levels show that it is about. -/
def SameBut (r : Request) (o o' : Options) : Prop :=
  (∀ c, ¬ r.About c → o'.shows c = o.shows c) ∧ o' = { o with shows := o'.shows }

variable {r : Request} {o : Options} {c : Category} {d : Condition}

/-- What comes of a request: it is refused if it is unknown, and then it decides nothing.  Else its
    decisions are carried out and all else stays. -/
def Fulfils (r : Request) (o : Options) : Except OptionsError Options → Prop
  | .error _ => r.Unknown ∧ ∀ c, ∀ d ∈ c.conditions, r.decision c d = none
  | .ok o' => ¬ r.Unknown ∧ r.SameBut o o' ∧
      ∀ c, ∀ d ∈ c.conditions, o'.shows c d = (r.decision c d).getD (o.shows c d)

theorem setCategory_shows (o : Options) (c c' : Category) (shown : Condition → Bool)
    (d : Condition) :
    (o.setCategory c shown).shows c' d = if c' = c then shown d else o.shows c' d := rfl

/-- A level that is decided anew is the only one that changes. -/
theorem setCategory_sameBut {shown : Condition → Bool} (about : r.About c) :
    r.SameBut o (o.setCategory c shown) := by
  refine ⟨fun c' other => ?_, rfl⟩
  have apart : c' ≠ c := fun same => other (same ▸ about)
  funext d
  rw [setCategory_shows, if_neg apart]

theorem trace_fulfils (level : String) (flags : Option String) (o : Options) :
    (trace level flags).Fulfils o ((trace level flags).carryOut o) := by
  cases found : category level with
  | error e =>
      simp [carryOut, found, Except.bind, Fulfils, Unknown, decision, ne_name_of_category found]
  | ok c =>
      obtain rfl := category_eq_ok.mp found
      simp only [carryOut, found, Except.bind, setTrace]
      cases unknown : unknownFlags c (flags.getD "").toList with
      | nil =>
          have known : ∀ f ∈ given flags, f ∈ c.flags := Heap.unknownFlags_eq_nil.mp unknown
          refine ⟨fun strange => ?_, setCategory_sameBut rfl, fun c' d _ => ?_⟩
          · obtain ⟨f, inside, outside⟩ := strange c rfl
            exact outside (known f inside)
          · rw [setCategory_shows]
            by_cases same : c' = c
            · subst same
              rw [if_pos rfl, decision, if_pos ⟨rfl, by simpa using known⟩]
              rfl
            · simp [decision, Category.name_inj, Ne.symm same, same]
      | cons f rest =>
          have strange : ¬ ∀ f ∈ given flags, f ∈ c.flags := fun known => by
            have none := Heap.unknownFlags_eq_nil.mpr known
            exact List.cons_ne_nil f rest (unknown.symm.trans none)
          refine ⟨fun c' same => ?_, fun c' d _ => ?_⟩
          · obtain rfl := Category.name_inj.mp same
            push Not at strange
            exact strange
          · refine if_neg fun asked => strange ?_
            obtain rfl := Category.name_inj.mp asked.1
            simpa using asked.2

theorem condition_fulfils (level word : String) (shown : Bool) (o : Options) :
    (condition level word shown).Fulfils o ((condition level word shown).carryOut o) := by
  cases found : category level with
  | error e =>
      simp [carryOut, found, Except.bind, Fulfils, Unknown, decision, ne_name_of_category found]
  | ok c =>
      obtain rfl := category_eq_ok.mp found
      simp only [carryOut, found, Except.bind, setCondition]
      cases known : c.conditions.find? (·.name == word) with
      | some d =>
          obtain ⟨inside, rfl⟩ := find?_condition.mp known
          refine ⟨fun strange => strange c rfl d inside rfl, setCategory_sameBut rfl,
            fun c' d' _ => ?_⟩
          rw [setCategory_shows]
          by_cases same : c' = c
          · subst same
            by_cases it : d' = d
            · simp [decision, it]
            · simp [decision, Condition.name_inj, it, Ne.symm it]
          · simp [decision, Category.name_inj, same, Ne.symm same]
      | none =>
          have strange : ∀ d ∈ c.conditions, word ≠ d.name := fun d inside same => by
            simp [find?_condition.mpr ⟨inside, same⟩] at known
          refine ⟨fun c' same => ?_, fun c' d inside => if_neg fun asked => ?_⟩
          · exact Category.name_inj.mp same ▸ strange
          · obtain rfl := Category.name_inj.mp asked.1
            exact strange d inside asked.2

theorem carryOut_fulfils (r : Request) (o : Options) : r.Fulfils o (r.carryOut o) := by
  cases r with
  | trace level flags => exact trace_fulfils level flags o
  | condition level word shown => exact condition_fulfils level word shown o
  | traceAll => exact ⟨id, ⟨fun c other => absurd trivial other, rfl⟩, fun _ _ _ => rfl⟩

/-! ## Requests one after the other -/

/-- What a request leaves shown. -/
theorem after_shows (known : d ∈ c.conditions) :
    (r.after o).shows c d = (r.decision c d).getD (o.shows c d) := by
  have fulfils := carryOut_fulfils r o
  unfold after
  cases done : r.carryOut o with
  | ok o' => exact (done ▸ fulfils).2.2 c d known
  | error e =>
      rw [(done ▸ fulfils : r.Fulfils o (.error e)).2 c d known]
      rfl

/-- The decision of the last request that has to do with a condition. -/
def lastDecision (c : Category) (d : Condition) (requests : List Request) : Option Bool :=
  requests.reverse.findSome? (decision c d)

/-- By induction on the requests from the end: the last one decides, unless it has nothing to do
    with the condition. -/
theorem afterAll_shows (known : d ∈ c.conditions) (requests : List Request) :
    (afterAll o requests).shows c d = (lastDecision c d requests).getD (o.shows c d) := by
  induction requests using List.reverseRecOn with
  | nil => rfl
  | append_singleton earlier r ih =>
      simp only [afterAll, lastDecision, List.foldl_append, List.foldl_cons, List.foldl_nil,
        List.reverse_append, List.reverse_cons, List.reverse_nil, List.nil_append,
        List.cons_append, List.findSome?_cons] at ih ⊢
      rw [after_shows known]
      cases r.decision c d with
      | some shown => rfl
      | none => exact ih

/-- Tracing needs something to be shown at each level. -/
theorem tracingEnabled_iff :
    o.tracingEnabled = true ↔ ∀ c : Category, ∃ d ∈ c.conditions, o.shows c d = true := by
  simp [tracingEnabled, Heap.category_mem]

/-- An unknown request raises and changes nothing, any other one is carried out and changes its own
    level only.  After requests to fresh options a condition is shown as the last decision about it
    was, as at first if there was none, and tracing is on exactly if that account shows something at
    each level. -/
theorem afterAll_default (requests : List Request) :
    (∀ (r : Request) (o : Options),
        r.Unknown ∧ r.after o = o ∧ (∃ e, r.carryOut o = .error e ∧ e.fault.cls = "ValueError") ∨
          ¬ r.Unknown ∧ r.SameBut o (r.after o) ∧ r.carryOut o = .ok (r.after o)) ∧
      (∀ c, ∀ d ∈ c.conditions, (afterAll .default requests).shows c d =
        (lastDecision c d requests).getD (Options.default.shows c d)) ∧
      ((afterAll .default requests).tracingEnabled = true ↔ ∀ c : Category, ∃ d ∈ c.conditions,
        (lastDecision c d requests).getD (Options.default.shows c d) = true) := by
  refine ⟨fun r o => ?_, fun c d known => afterAll_shows known requests, ?_⟩
  · have fulfils := carryOut_fulfils r o
    unfold after
    cases done : r.carryOut o with
    | error e => exact .inl ⟨(done ▸ fulfils : r.Fulfils o (.error e)).1, rfl, e, rfl, rfl⟩
    | ok o' =>
        have fulfils : r.Fulfils o (.ok o') := done ▸ fulfils
        exact .inr ⟨fulfils.1, fulfils.2.1, rfl⟩
  · rw [tracingEnabled_iff]
    refine forall_congr' fun c => exists_congr fun d => and_congr_right fun known => ?_
    rw [afterAll_shows known]

-- The tests that fail are hidden; the request after that is lost, since tests are never set.
example : (afterAll .default [.traceAll, .condition "tests" "fail" false,
    .condition "tests" "set" false]).shows .tests .fail = false := by decide

end Request

end Options

end Assay
