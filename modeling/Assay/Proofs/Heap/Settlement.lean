import Assay.Heap.Equality
import Mathlib.Data.Fintype.Card
import Mathlib.Data.Fintype.Prod

/-! # Comparisons that come to an end

A comparison that is answered with some budget is answered in the same way with every larger one.
Only pairs of objects ask for a smaller budget, and there are no more of them than the square of the
number of objects; so what is answered at all is answered with the budget that equality has, and
equality is a fixed point of the step that it repeats.
-/

namespace Assay

variable {α β : Type}

/-- What comes to a result on the left comes to it on the right. -/
def Refined (r r' : Except Fault α) : Prop := ∀ x, r = .ok x → r' = .ok x

/-- The second comparison answers all that the first one answers, in the same way. -/
def Knows (eq eq' : Comparison) : Prop := ∀ x y, Refined (eq x y) (eq' x y)

theorem Refined.refl (r : Except Fault α) : Refined r r := fun _ => id

theorem Refined.of_error {f : Fault} {r' : Except Fault α} : Refined (.error f) r' :=
  fun _ ok => nomatch ok

theorem Refined.cases {r r' : Except Fault α} (refined : Refined r r') :
    (∃ f, r = .error f) ∨ ∃ x, r = .ok x ∧ r' = .ok x := by
  cases r with
  | error f => exact .inl ⟨f, rfl⟩
  | ok x => exact .inr ⟨x, rfl, refined x rfl⟩

theorem Refined.map {r r' : Except Fault α} (refined : Refined r r') (f : α → β) :
    Refined (r.map f) (r'.map f) := by
  rcases refined.cases with ⟨e, failed⟩ | ⟨x, left, right⟩
  · rw [failed]
    exact .of_error
  · rw [left, right]
    exact .refl _

namespace Entries

variable {κ ν : Type} {isKey isKey' : κ → Except Fault Bool}

theorem search_refined (knows : ∀ k, Refined (isKey k) (isKey' k)) (es : List (κ × ν)) :
    Refined (search isKey es) (search isKey' es) := by
  induction es with
  | nil => exact .refl _
  | cons e rest ih =>
      simp only [search]
      rcases (knows e.1).cases with ⟨f, asked⟩ | ⟨here, asked, asked'⟩
      · simp only [asked, Refined.of_error]
      · simp only [asked, asked']
        cases here with
        | true => exact .refl _
        | false => exact ih

theorem enter_refined (knows : ∀ k, Refined (isKey k) (isKey' k)) (key : κ) (v : ν)
    (es : List (κ × ν)) : Refined (enter isKey key v es) (enter isKey' key v es) := by
  induction es with
  | nil => exact .refl _
  | cons e rest ih =>
      simp only [enter]
      rcases (knows e.1).cases with ⟨f, asked⟩ | ⟨here, asked, asked'⟩
      · simp only [asked, Refined.of_error]
      · simp only [asked, asked']
        cases here with
        | true => exact .refl _
        | false => exact ih.map _

end Entries

theorem anyM_refined {test test' : α → Except Fault Bool} (knows : ∀ x, Refined (test x) (test' x))
    (xs : List α) : Refined (xs.anyM test) (xs.anyM test') := by
  induction xs with
  | nil => exact .refl _
  | cons x rest ih =>
      simp only [List.anyM, bind, Except.bind]
      rcases (knows x).cases with ⟨f, asked⟩ | ⟨passes, asked, asked'⟩
      · simp only [asked, Refined.of_error]
      · simp only [asked, asked']
        cases passes with
        | true => exact .refl _
        | false => exact ih

theorem allM_refined {test test' : α → Except Fault Bool} (knows : ∀ x, Refined (test x) (test' x))
    (xs : List α) : Refined (xs.allM test) (xs.allM test') := by
  induction xs with
  | nil => exact .refl _
  | cons x rest ih =>
      simp only [List.allM, bind, Except.bind]
      rcases (knows x).cases with ⟨f, asked⟩ | ⟨passes, asked, asked'⟩
      · simp only [asked, Refined.of_error]
      · simp only [asked, asked']
        cases passes with
        | true => exact ih
        | false => exact .refl _

namespace Knows

variable {eq eq' : Comparison} (knows : Knows eq eq')
include knows

theorem sameOr (x y : Value) : Refined (Assay.sameOr eq x y) (Assay.sameOr eq' x y) := by
  unfold Assay.sameOr
  split
  · exact .refl _
  · exact knows x y

theorem isFor (key k : Key) : Refined (key.isFor eq k) (key.isFor eq' k) := by
  unfold Key.isFor
  split
  · exact knows.sameOr _ _
  · exact .refl _

end Knows

namespace Heap

variable {h : Heap} {eq eq' : Comparison}

section Refinement

variable (knows : Knows eq eq')
include knows

theorem allEqual_refined (xs ys : List Value) :
    Refined (allEqual eq xs ys) (allEqual eq' xs ys) := by
  induction xs generalizing ys with
  | nil => exact .refl _
  | cons x xs ih =>
      cases ys with
      | nil => exact .refl _
      | cons y ys =>
          simp only [allEqual]
          rcases (knows.sameOr x y).cases with ⟨f, asked⟩ | ⟨same, asked, asked'⟩
          · simp only [asked, Refined.of_error]
          · simp only [asked, asked']
            cases same with
            | true => exact ih ys
            | false => exact .refl _

theorem entriesIn_refined (other es : List (Key × Value)) :
    Refined (entriesIn eq other es) (entriesIn eq' other es) := by
  induction es with
  | nil => exact .refl _
  | cons e rest ih =>
      simp only [entriesIn]
      rcases (Entries.search_refined (knows.isFor e.1) other).cases with
        ⟨f, found⟩ | ⟨v, found, found'⟩
      · simp only [found, Refined.of_error]
      · simp only [found, found']
        cases v with
        | none => exact .refl _
        | some v =>
            dsimp only
            rcases (knows.sameOr e.2 v).cases with ⟨f, asked⟩ | ⟨same, asked, asked'⟩
            · simp only [asked, Refined.of_error]
            · simp only [asked, asked']
              cases same with
              | true => exact ih
              | false => exact .refl _

theorem entriesEqual_refined (lead other : List (Key × Value)) :
    Refined (entriesEqual eq lead other) (entriesEqual eq' lead other) := by
  unfold entriesEqual
  split
  · exact .refl _
  · exact entriesIn_refined knows other lead

theorem membersEqual_refined (xs ys : List Key) :
    Refined (membersEqual eq xs ys) (membersEqual eq' xs ys) := by
  unfold membersEqual
  split
  · exact .refl _
  · exact allM_refined (fun x => anyM_refined (knows.isFor x) ys) xs

/-! ## Walks -/

theorem under?_refined {ν : Type} (v : Value) (es : List (Key × ν)) :
    Refined (h.under? eq v es) (h.under? eq' v es) := by
  unfold under?
  split
  · exact .refl _
  · exact Entries.search_refined (knows.isFor _) es

theorem under_refined {ν : Type} (v : Value) (es : List (Key × ν)) :
    Refined (h.under eq v es) (h.under eq' v es) := by
  unfold under
  rcases (under?_refined (h := h) knows v es).cases with ⟨f, found⟩ | ⟨x, found, found'⟩
  · simp only [found, Refined.of_error]
  · simp only [found, found', Refined.refl]

theorem underOwn_refined {ν : Type} (v : Value) (es : List (Key × ν)) :
    Refined (h.underOwn eq v es) (h.underOwn eq' v es) := by
  unfold underOwn
  rcases (under?_refined (h := h) knows v es).cases with ⟨f, found⟩ | ⟨x, found, found'⟩
  · simp only [found, Refined.of_error]
  · simp only [found, found', Refined.refl]

/-- A walk that comes to its end is the same where more is answered. -/
theorem orderedPlaces_refined (keys : List Key) (limit place : Nat)
    (whole : ∀ p ∈ h.orderedPlaces eq keys limit place, ∃ x, p = .ok x) :
    h.orderedPlaces eq' keys limit place = h.orderedPlaces eq keys limit place := by
  induction limit generalizing place with
  | zero => rfl
  | succ limit ih =>
      simp only [orderedPlaces] at whole ⊢
      cases here : keys[place]? with
      | none => rfl
      | some k =>
          simp only [here] at whole ⊢
          cases found : h.underOwn eq k.value keys.zipIdx with
          | error f => simp [found] at whole
          | ok place' =>
              simp only [found] at whole
              rw [underOwn_refined knows _ _ _ found]
              simp only
              rw [ih (place' + 1) fun p later => whole p (List.mem_cons_of_mem _ later)]

theorem walkEntriesWith_refined (kind : MappingKind) (es : List (Key × Value))
    (whole : ∀ p ∈ h.walkEntriesWith eq kind es, ∃ x, p = .ok x) :
    h.walkEntriesWith eq' kind es = h.walkEntriesWith eq kind es := by
  unfold walkEntriesWith at whole ⊢
  dsimp only at whole ⊢
  split at whole
  · rw [orderedPlaces_refined knows]
    intro p inside
    obtain ⟨x, ok⟩ := whole _ (List.mem_map_of_mem inside)
    cases p with
    | error f => cases ok
    | ok y => exact ⟨y, rfl⟩
  · refine List.map_congr_left fun k inside => ?_
    obtain ⟨x, ok⟩ := whole _ (List.mem_map_of_mem inside)
    rw [ok]
    exact (under_refined knows k.value es).map _ x ok
  · rfl

theorem fileWith_refined {ν : Type} (es : List (Key × ν)) (v : Value) (x : ν) :
    Refined (h.fileWith eq es v x) (h.fileWith eq' es v x) := by
  unfold fileWith
  split
  · exact .refl _
  · exact Entries.enter_refined (knows.isFor _) _ x es

theorem fileWalk_refined (filed : List (Key × Value)) (walk : Walk (Value × Value)) :
    Refined (h.fileWalk eq filed walk) (h.fileWalk eq' filed walk) := by
  induction walk generalizing filed with
  | nil => exact .refl _
  | cons p rest ih =>
      cases p with
      | error f => exact .refl _
      | ok e =>
          simp only [fileWalk]
          rcases (fileWith_refined (h := h) knows filed e.1 e.2).cases with
            ⟨f, entered⟩ | ⟨filed', entered, entered'⟩
          · simp only [entered, Refined.of_error]
          · simp only [entered, entered']
            exact ih filed'

end Refinement

/-- What is filed comes from a walk that comes to its end. -/
theorem fileWalk_whole {filed es : List (Key × Value)} {walk : Walk (Value × Value)}
    (ok : h.fileWalk eq filed walk = .ok es) : ∀ p ∈ walk, ∃ x, p = .ok x := by
  induction walk generalizing filed with
  | nil => simp
  | cons p rest ih =>
      cases p with
      | error f => cases ok
      | ok e =>
          simp only [fileWalk] at ok
          split at ok
          · cases ok
          · intro p inside
            rcases List.mem_cons.mp inside with rfl | later
            · exact ⟨e, rfl⟩
            · exact ih ok p later

section Refinement

variable (knows : Knows eq eq')
include knows

theorem filed_refined (kind : MappingKind) (es : List (Key × Value)) :
    Refined (h.fileWalk eq [] (h.walkEntriesWith eq kind es))
      (h.fileWalk eq' [] (h.walkEntriesWith eq' kind es)) := by
  intro filed ok
  rw [walkEntriesWith_refined knows kind es (fileWalk_whole ok)]
  exact fileWalk_refined knows _ _ _ ok

theorem walksEqual_refined (kind kind' : MappingKind) (es es' : List (Key × Value)) :
    Refined (h.walksEqual eq kind kind' es es') (h.walksEqual eq' kind kind' es es') := by
  unfold walksEqual
  rcases (filed_refined (h := h) knows kind es).cases with ⟨f, left⟩ | ⟨lead, left, left'⟩
  · simp only [left, Refined.of_error]
  · simp only [left, left']
    rcases (filed_refined (h := h) knows kind' es').cases with ⟨f, right⟩ | ⟨other, right, right'⟩
    · simp only [right, Refined.of_error]
    · simp only [right, right']
      exact entriesEqual_refined knows lead other

/-! ## Opinions -/

theorem mappingOpinion_refined (kind kind' : MappingKind) (plain' : Bool)
    (es es' : List (Key × Value)) :
    Refined (h.mappingOpinion eq kind kind' plain' es es')
      (h.mappingOpinion eq' kind kind' plain' es es') := by
  have entries (xs ys : List (Key × Value)) := (entriesEqual_refined knows xs ys).map some
  have ordered : Refined (h.mappingOpinion eq .ordered .ordered plain' es es')
      (h.mappingOpinion eq' .ordered .ordered plain' es es') := by
    simp only [mappingOpinion]
    rcases (entriesEqual_refined knows es es').cases with ⟨f, asked⟩ | ⟨same, asked, asked'⟩
    · simp only [asked, Refined.of_error]
    · simp only [asked, asked']
      cases same with
      | false => exact .refl _
      | true => exact (allEqual_refined knows _ _).map some
  cases kind with
  | frozen => exact (walksEqual_refined knows _ _ _ _).map some
  | view =>
      cases kind' with
      | frozen => exact (walksEqual_refined knows _ _ _ _).map some
      | view => exact entries _ _
      | dict | ordered | defaulting =>
          cases plain' with
          | true => exact entries _ _
          | false => exact entries _ _
  | ordered =>
      cases kind' with
      | frozen | view => exact .refl _
      | ordered => exact ordered
      | dict | defaulting => exact entries _ _
  | dict | defaulting =>
      cases kind' with
      | frozen | view => exact .refl _
      | dict | ordered | defaulting => exact entries _ _

theorem objectOpinion_refined (a : Address) (y : Value) :
    Refined (h.objectOpinion eq a y) (h.objectOpinion eq' a y) := by
  unfold objectOpinion
  dsimp only
  split
  · split
    · exact .refl _
    · split
      · exact .refl _
      · exact (allEqual_refined knows _ _).map _
  · exact mappingOpinion_refined knows _ _ _ _ _
  · exact (membersEqual_refined knows _ _).map some
  · exact .refl _
  · exact .refl _
  · split
    · exact .refl _
    · split
      · split
        · exact .refl _
        · -- Both objects tell their fields, or neither comparison is made.
          simp only [bind, Except.bind]
          split
          · exact .refl _
          · split
            · exact .refl _
            · exact (allEqual_refined knows _ _).map some
      · exact .refl _
    · exact .refl _
  · exact .refl _

theorem opinion_refined (x y : Value) : Refined (h.opinion eq x y) (h.opinion eq' x y) := by
  cases x with
  | ref a => exact objectOpinion_refined knows a y
  | _ => exact .refl _

end Refinement

/-! ## The step that equality repeats -/

variable (h) in
/-- What two operands come to, given how their members compare. -/
def answer (eq : Comparison) (l r : Value) : Except Fault Bool :=
  let (x, y) := if h.asksRightFirst l r then (r, l) else (l, r)
  match h.opinion eq x y with
  | .error e => .error e
  | .ok (some b) => .ok b
  | .ok none =>
    match h.opinion eq y x with
    | .error e => .error e
    | .ok (some b) => .ok b
    | .ok none => .ok (l == r)

theorem equalWithin_succ (n : Nat) : h.equalWithin (n + 1) = h.answer (h.equalWithin n) := rfl

theorem answer_refined (knows : Knows eq eq') : Knows (h.answer eq) (h.answer eq') := by
  intro l r
  unfold answer
  split
  rename_i x y _
  rcases (opinion_refined (h := h) knows x y).cases with ⟨f, first⟩ | ⟨o, first, first'⟩
  · simp only [first, Refined.of_error]
  · simp only [first, first']
    cases o with
    | some b => exact .refl _
    | none =>
        rcases (opinion_refined (h := h) knows y x).cases with ⟨f, second⟩ | ⟨o, second, second'⟩
        · simp only [second, Refined.of_error]
        · simp only [second, second', Refined.refl]

/-- With more budget nothing is answered in another way. -/
theorem equalWithin_refined (n : Nat) : Knows (h.equalWithin n) (h.equalWithin (n + 1)) := by
  induction n with
  | zero => exact fun _ _ => .of_error
  | succ n ih => exact answer_refined ih

/-! ## Pairs that ask nothing -/

/-- An object of the most general class says of others only whether they are itself. -/
theorem objectOpinion_blank {a : Address} (plain : (h.classes "object").equality = .identity)
    (blank : h.object a = .blank) (y : Value) :
    h.objectOpinion eq a y = h.objectOpinion eq' a y := by
  have body : (h.object a).body = .plain := by rw [blank]; rfl
  have cls : (h.object a).cls = "object" := by rw [blank]; rfl
  simp only [objectOpinion, body, cls, plain]

/-- Objects are asked for their members only when they are compared with objects that have some. -/
theorem objectOpinion_datum {a : Address} {y : Value} (datum : ∀ b, y ≠ .ref b) :
    h.objectOpinion eq a y = h.objectOpinion eq' a y := by
  cases body : (h.object a).body <;> cases y <;>
    first | exact absurd rfl (datum _) | simp only [objectOpinion, body]

theorem objectOpinion_of_blank {a b : Address} (plain : (h.classes "object").equality = .identity)
    (blank : h.object b = .blank) :
    h.objectOpinion eq a (.ref b) = h.objectOpinion eq' a (.ref b) := by
  cases body : (h.object a).body with
  | plain =>
      simp only [objectOpinion, body, blank]
      cases equality : (h.classes (h.object a).cls).equality with
      | identity | custom _ => rfl
      | fieldwise fields =>
          have other : (Object.blank.cls != (h.object a).cls) = true := by
            simp only [bne_iff_ne, ne_eq]
            intro same
            rw [← same] at equality
            cases plain.symm.trans equality
          simp only [other, if_true]
  | _ => simp only [objectOpinion, body, blank, Object.blank]

theorem object_absent {a : Address} (absent : h.objects.size ≤ a) : h.object a = .blank := by
  simp [object, Array.getElem?_eq_none absent]

theorem opinion_absent (plain : (h.classes "object").equality = .identity) {x y : Value}
    (absent : ∀ a b, x = .ref a → y = .ref b → h.objects.size ≤ a ∨ h.objects.size ≤ b) :
    h.opinion eq x y = h.opinion eq' x y := by
  cases x with
  | ref a =>
      show h.objectOpinion eq a y = h.objectOpinion eq' a y
      by_cases object : ∃ b, y = .ref b
      · obtain ⟨b, rfl⟩ := object
        rcases absent a b rfl rfl with left | right
        · exact objectOpinion_blank plain (object_absent left) _
        · exact objectOpinion_of_blank plain (object_absent right)
      · exact objectOpinion_datum fun b same => object ⟨b, same⟩
  | _ => rfl

theorem answer_absent (plain : (h.classes "object").equality = .identity) {l r : Value}
    (absent : ∀ a b, l = .ref a → r = .ref b → h.objects.size ≤ a ∨ h.objects.size ≤ b) :
    h.answer eq l r = h.answer eq' l r := by
  have forth : h.opinion eq l r = h.opinion eq' l r := opinion_absent plain absent
  have back : h.opinion eq r l = h.opinion eq' r l :=
    opinion_absent plain fun a b right left => (absent b a left right).symm
  unfold answer
  cases h.asksRightFirst l r with
  | true => simp only [if_true, forth, back]
  | false => simp only [Bool.false_eq_true, if_false, forth, back]

/-! ## The budget is enough -/

/-- From some budget on no pair of objects gets an answer that it did not have before. -/
theorem equalWithin_rests (h : Heap) : ∃ n ≤ h.objects.size * h.objects.size,
    ∀ a b, a < h.objects.size → b < h.objects.size → ∀ answer,
      h.equalWithin (n + 2) (.ref a) (.ref b) = .ok answer →
      h.equalWithin (n + 1) (.ref a) (.ref b) = .ok answer := by
  by_contra restless
  push Not at restless
  let Pair := Fin h.objects.size × Fin h.objects.size
  let Answered (n : Nat) (p : Pair) : Prop :=
    ∃ answer, h.equalWithin n (.ref p.1) (.ref p.2) = .ok answer
  have keeps {m n : Nat} (le : m ≤ n) {p : Pair} (answered : Answered m p) : Answered n p := by
    induction le with
    | refl => exact answered
    | step _ ih =>
        obtain ⟨answer, ok⟩ := ih
        exact ⟨answer, equalWithin_refined _ _ _ _ ok⟩
  -- Each budget up to the number of pairs would answer another pair for the first time.
  have first (n : Fin (h.objects.size * h.objects.size + 1)) :
      ∃ p : Pair, Answered (n + 2) p ∧ ¬ Answered (n + 1) p := by
    obtain ⟨a, b, live, live', answer, now, before⟩ := restless n (by omega)
    refine ⟨(⟨a, live⟩, ⟨b, live'⟩), ⟨answer, now⟩, fun ⟨other, ok⟩ => before ?_⟩
    have same := equalWithin_refined _ _ _ _ ok
    cases same.symm.trans now
    exact ok
  choose pair answered unanswered using first
  have injective : Function.Injective pair := by
    intro m n same
    rcases Nat.lt_trichotomy m n with less | equal | more
    · have early : Answered (n + 1) (pair m) := keeps (by omega) (answered m)
      exact absurd (same ▸ early) (unanswered n)
    · exact Fin.ext equal
    · have early : Answered (m + 1) (pair n) := keeps (by omega) (answered n)
      exact absurd (same ▸ early) (unanswered m)
  have count := Fintype.card_le_of_injective pair injective
  simp only [Pair, Fintype.card_fin, Fintype.card_prod] at count
  omega

/-- What equality answers with one step more it answers as it is. -/
theorem equalWithin_settled (plain : (h.classes "object").equality = .identity) {m : Nat}
    (enough : h.objects.size * h.objects.size ≤ m) :
    Knows (h.equalWithin (m + 2)) (h.equalWithin (m + 1)) := by
  obtain ⟨n, below, rests⟩ := equalWithin_rests h
  have le : n ≤ m := Nat.le_trans below enough
  clear enough
  induction le with
  | refl =>
      intro x y answer ok
      by_cases objects : ∃ a b, x = .ref a ∧ y = .ref b ∧ a < h.objects.size ∧ b < h.objects.size
      · obtain ⟨a, b, rfl, rfl, live, live'⟩ := objects
        exact rests a b live live' answer ok
      · have same : h.answer (h.equalWithin n) x y = h.answer (h.equalWithin (n + 1)) x y :=
          answer_absent plain fun a b left right => by
            by_contra live
            exact objects ⟨a, b, left, right, Nat.lt_of_not_le fun le => live (.inl le),
              Nat.lt_of_not_le fun le => live (.inr le)⟩
        rw [equalWithin_succ] at ok ⊢
        rwa [same]
  | step _ ih => exact answer_refined ih

theorem answer_equal (plain : (h.classes "object").equality = .identity) (x y : Value) (b : Bool) :
    h.answer h.equal x y = .ok b ↔ h.equal x y = .ok b :=
  ⟨equalWithin_settled plain (Nat.le_refl _) x y b, equalWithin_refined _ x y b⟩

end Heap

end Assay
