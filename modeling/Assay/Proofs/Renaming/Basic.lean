import Assay.Heap.Walk
import Assay.Proofs.Related

/-! # Values at other addresses

The same objects can lie at other addresses on another heap. A renaming says which addresses of the
one heap stand for which of the other; it need not be told of all of them, but it keeps the order in
which objects were made. What holds addresses is renamed piece by piece.

What a question comes to on two heaps is compared here, also where the first of them may have been
given the smaller budget for it.
-/

namespace Assay

/-- Which addresses of one heap stand for which addresses of another. -/
abbrev Renaming := Address → Address → Prop

namespace Renaming

variable {R : Renaming} {a a' b b' : Nat}

/-- The objects that are renamed were made in the same order on both sides. -/
structure Ordered (R : Renaming) : Prop where
  lt_iff : ∀ {a a' b b' : Nat}, R a a' → R b b' → (a < b ↔ a' < b')

theorem Ordered.eq_iff (ordered : R.Ordered) (left : R a a') (right : R b b') :
    a = b ↔ a' = b' := by
  have below := ordered.lt_iff left right
  have above := ordered.lt_iff right left
  omega

theorem Ordered.biUnique (ordered : R.Ordered) : Relator.BiUnique R :=
  ⟨fun _ _ _ left right => (ordered.eq_iff left right).mpr rfl,
    fun _ _ _ left right => (ordered.eq_iff left right).mp rfl⟩

end Renaming

theorem contains_related {R : Renaming} (ordered : R.Ordered) {seen seen' : List Address}
    (related : List.Forall₂ R seen seen') {a a' : Address} (here : R a a') :
    seen'.contains a' = seen.contains a := by
  rw [Bool.eq_iff_iff, List.contains_iff_mem, List.contains_iff_mem]
  exact (List.rel_mem ordered.biUnique here related).symm

/-! ## Values -/

namespace Value

/-- Plain data, which is the same wherever it is. -/
def isDatum : Value → Bool
  | .nan _ | .ref _ => false
  | _ => true

/-- The same value at other addresses. -/
inductive Renamed (R : Renaming) : Value → Value → Prop where
  | datum {v} : v.isDatum = true → Renamed R v v
  | nan {a a'} : R a a' → Renamed R (.nan a) (.nan a')
  | ref {a a'} : R a a' → Renamed R (.ref a) (.ref a')

variable {R : Renaming} {v v' w w' : Value}

theorem Renamed.eq_iff (ordered : R.Ordered) (left : v.Renamed R v') (right : w.Renamed R w') :
    v = w ↔ v' = w' := by
  rcases left with data | here | here <;> rcases right with data' | here' | here'
  case datum.datum => rfl
  case nan.nan => simpa using ordered.eq_iff here here'
  case ref.ref => simpa using ordered.eq_iff here here'
  case datum.nan | datum.ref => constructor <;> rintro rfl <;> cases data
  case nan.datum | ref.datum => constructor <;> rintro rfl <;> cases data'
  case nan.ref | ref.nan => simp

theorem Renamed.beq (ordered : R.Ordered) (left : v.Renamed R v') (right : w.Renamed R w') :
    (v == w) = (v' == w') := by
  rw [Bool.eq_iff_iff, beq_iff_eq, beq_iff_eq]
  exact left.eq_iff ordered right

theorem Renamed.int? (renamed : v.Renamed R v') : v'.int? = v.int? := by
  cases renamed <;> rfl

theorem Renamed.text? (renamed : v.Renamed R v') : v'.text? = v.text? := by
  cases renamed <;> rfl

theorem Renamed.mono {S : Renaming} (more : ∀ a a', R a a' → S a a') (renamed : v.Renamed R v') :
    v.Renamed S v' := by
  cases renamed with
  | datum data => exact .datum data
  | nan here => exact .nan (more _ _ here)
  | ref here => exact .ref (more _ _ here)

end Value

/-- The same fault about values at other addresses. -/
structure Fault.Renamed (R : Renaming) (f f' : Fault) : Prop where
  cls : f'.cls = f.cls
  args : List.Forall₂ (Value.Renamed R) f.args f'.args

theorem Fault.Renamed.text {R : Renaming} (cls : ClassName) (message : String) :
    Fault.Renamed R ⟨cls, [.text message]⟩ ⟨cls, [.text message]⟩ :=
  ⟨rfl, .cons (.datum rfl) .nil⟩

/-! ## Results -/

/-- Two results that are related if they are values, and the same fault otherwise. Where the first
may lack budget, it says nothing if it has run out of it. -/
inductive Results {α β : Type} (R : Renaming) (lacking : Prop) (S : α → β → Prop) :
    Except Fault α → Except Fault β → Prop where
  | ok {x x'} : S x x' → Results R lacking S (.ok x) (.ok x')
  | error {f f'} : f.Renamed R f' → Results R lacking S (.error f) (.error f')
  | cut {r'} : lacking → Results R lacking S (.error .tooDeep) r'

namespace Results

variable {α β γ δ : Type} {R : Renaming} {lacking : Prop} {S : α → β → Prop} {T : γ → δ → Prop}
  {r : Except Fault α} {r' : Except Fault β}

theorem message (cls : ClassName) (message : String) : Results R lacking S
    (.error ⟨cls, [.text message]⟩) (.error ⟨cls, [.text message]⟩) :=
  .error (.text cls message)

theorem tooDeep : Results R lacking S (.error .tooDeep) (.error .tooDeep) :=
  .message _ _

theorem imp {S' : α → β → Prop} (results : Results R lacking S r r')
    (imp : ∀ x x', S x x' → S' x x') : Results R lacking S' r r' := by
  cases results with
  | ok related => exact .ok (imp _ _ related)
  | error same => exact .error same
  | cut lacks => exact .cut lacks

/-- With budget enough on both sides, results are both values or both faults. -/
@[elab_as_elim]
theorem both {motive : (r : Except Fault α) → (r' : Except Fault β) →
    Results R False S r r' → Prop}
    (ok : ∀ {x x'} (related : S x x'), motive _ _ (.ok related))
    (error : ∀ {f f' : Fault} (same : f.Renamed R f'), motive _ _ (.error same))
    (results : Results R False S r r') : motive r r' results := by
  cases results with
  | ok related => exact ok related
  | error same => exact error same
  | cut lacks => exact lacks.elim

theorem loosen (results : Results R False S r r') : Results R lacking S r r' := by
  cases results using both with
  | ok related => exact .ok related
  | error same => exact .error same

/-- With budget enough on both sides, either both are values or both are faults. -/
theorem ok_or_error (results : Results R False S r r') :
    (∃ x x', r = .ok x ∧ r' = .ok x' ∧ S x x') ∨
      ∃ f f', r = .error f ∧ r' = .error f' ∧ f.Renamed R f' := by
  cases results using both with
  | ok related => exact .inl ⟨_, _, rfl, rfl, related⟩
  | error same => exact .inr ⟨_, _, rfl, rfl, same⟩

theorem map {g : α → γ} {g' : β → δ} (results : Results R lacking S r r')
    (next : ∀ x x', S x x' → T (g x) (g' x')) : Results R lacking T (r.map g) (r'.map g') := by
  cases results with
  | ok related => exact .ok (next _ _ related)
  | error same => exact .error same
  | cut lacks => exact .cut lacks

theorem bind {g : α → Except Fault γ} {g' : β → Except Fault δ}
    (results : Results R lacking S r r')
    (next : ∀ x x', S x x' → Results R lacking T (g x) (g' x')) :
    Results R lacking T (r.bind g) (r'.bind g') := by
  cases results with
  | ok related => exact next _ _ related
  | error same => exact .error same
  | cut lacks => exact .cut lacks

theorem mapM {P : α → β → Prop} {xs : List α} {xs' : List β} {g : α → Except Fault γ}
    {g' : β → Except Fault δ} (related : List.Forall₂ P xs xs')
    (each : ∀ x x', P x x' → Results R lacking T (g x) (g' x')) :
    Results R lacking (List.Forall₂ T) (xs.mapM g) (xs'.mapM g') := by
  induction related with
  | nil => exact .ok .nil
  | cons here _ ih =>
      simp only [List.mapM_cons]
      exact (each _ _ here).bind fun y y' first => ih.bind fun ys ys' rest => .ok (.cons first rest)

theorem foldlM {P : γ → δ → Prop} {xs : List γ} {xs' : List δ} {g : α → γ → Except Fault α}
    {g' : β → δ → Except Fault β} {x : α} {x' : β} (related : List.Forall₂ P xs xs') (start : S x x')
    (each : ∀ x x' y y', S x x' → P y y' → Results R lacking S (g x y) (g' x' y')) :
    Results R lacking S (xs.foldlM g x) (xs'.foldlM g' x') := by
  induction related generalizing x x' with
  | nil => exact .ok start
  | cons here _ ih =>
      simp only [List.foldlM_cons]
      exact (each _ _ _ _ start here).bind fun y y' next => ih next

theorem anyM {P : α → β → Prop} {xs : List α} {xs' : List β} {g : α → Except Fault Bool}
    {g' : β → Except Fault Bool} (related : List.Forall₂ P xs xs')
    (each : ∀ x x', P x x' → Results R lacking Eq (g x) (g' x')) :
    Results R lacking Eq (xs.anyM g) (xs'.anyM g') := by
  induction related with
  | nil => exact .ok rfl
  | cons here _ ih =>
      simp only [List.anyM]
      refine (each _ _ here).bind fun b b' same => ?_
      cases same
      cases b with
      | true => exact .ok rfl
      | false => exact ih

theorem allM {P : α → β → Prop} {xs : List α} {xs' : List β} {g : α → Except Fault Bool}
    {g' : β → Except Fault Bool} (related : List.Forall₂ P xs xs')
    (each : ∀ x x', P x x' → Results R lacking Eq (g x) (g' x')) :
    Results R lacking Eq (xs.allM g) (xs'.allM g') := by
  induction related with
  | nil => exact .ok rfl
  | cons here _ ih =>
      simp only [List.allM]
      refine (each _ _ here).bind fun b b' same => ?_
      cases same
      cases b with
      | true => exact ih
      | false => exact .ok rfl

end Results

/-- Two walks that yield what is related one after the other, up to the first fault. -/
inductive Walks {α β : Type} (R : Renaming) (lacking : Prop) (S : α → β → Prop) :
    Walk α → Walk β → Prop where
  | nil : Walks R lacking S [] []
  | ok {x x' rest rest'} : S x x' → Walks R lacking S rest rest' →
      Walks R lacking S (.ok x :: rest) (.ok x' :: rest')
  | error {f f' rest rest'} : f.Renamed R f' →
      Walks R lacking S (.error f :: rest) (.error f' :: rest')
  | cut {rest walk'} : lacking → Walks R lacking S (.error .tooDeep :: rest) walk'

namespace Walks

variable {α β γ δ : Type} {R : Renaming} {lacking : Prop} {S : α → β → Prop} {T : γ → δ → Prop}
  {walk : Walk α} {walk' : Walk β}

theorem of_ok {xs : List α} {xs' : List β} (related : List.Forall₂ S xs xs') :
    Walks R lacking S (xs.map .ok) (xs'.map .ok) := by
  induction related with
  | nil => exact .nil
  | cons here _ ih => exact .ok here ih

theorem of_each {P : γ → δ → Prop} {xs : List γ} {xs' : List δ} {g : γ → Except Fault α}
    {g' : δ → Except Fault β} (related : List.Forall₂ P xs xs')
    (each : ∀ x x', P x x' → Results R lacking S (g x) (g' x')) :
    Walks R lacking S (xs.map g) (xs'.map g') := by
  induction related with
  | nil => exact .nil
  | @cons x x' xs xs' here _ ih =>
      have first := each _ _ here
      simp only [List.map_cons]
      generalize g x = r, g' x' = r' at first ⊢
      cases first with
      | ok same => exact .ok same ih
      | error same => exact .error same
      | cut lacks => exact .cut lacks

theorem map {g : α → γ} {g' : β → δ} (walks : Walks R lacking S walk walk')
    (next : ∀ x x', S x x' → T (g x) (g' x')) :
    Walks R lacking T (walk.map (·.map g)) (walk'.map (·.map g')) := by
  induction walks with
  | nil => exact .nil
  | ok here _ ih => exact .ok (next _ _ here) ih
  | error same => exact .error same
  | cut lacks => exact .cut lacks

theorem bind {g : α → Except Fault γ} {g' : β → Except Fault δ} (walks : Walks R lacking S walk walk')
    (next : ∀ x x', S x x' → Results R lacking T (g x) (g' x')) :
    Walks R lacking T (walk.map (·.bind g)) (walk'.map (·.bind g')) := by
  induction walks with
  | nil => exact .nil
  | @ok x x' rest rest' here _ ih =>
      have first := next _ _ here
      simp only [List.map_cons, Except.bind]
      generalize g x = r, g' x' = r' at first ⊢
      cases first with
      | ok same => exact .ok same ih
      | error same => exact .error same
      | cut lacks => exact .cut lacks
  | error same => exact .error same
  | cut lacks => exact .cut lacks

theorem all (walks : Walks R lacking S walk walk') :
    Results R lacking (List.Forall₂ S) walk.all walk'.all := by
  induction walks with
  | nil => exact .ok .nil
  | ok here _ ih => exact ih.map fun _ _ rest => .cons here rest
  | error same => exact .error same
  | cut lacks => exact .cut lacks

end Walks

end Assay
