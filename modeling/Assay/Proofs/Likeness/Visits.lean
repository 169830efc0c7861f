import Assay.Proofs.Snapshot.Visits

/-! # What a comparison visits

The comparison of two values as it goes without a budget: which pairs of composites it enters, how
deep its calls are nested and what it returns, failures included.
-/

namespace Assay.Heap

variable (h : Heap)

mutual
/-- Two values are compared. -/
inductive Likens : List Address → Value → Value → Trip (Address × Address) Likeness → Prop where
  | types {seen l r} : h.typeOf l ≠ h.typeOf r → Likens seen l r ⟨[], 1, .ok none⟩
  | leaf {seen l r} : h.typeOf l = h.typeOf r → (h.shape l).address? = none →
      Likens seen l r ⟨[], 1, (h.leafEqual l r).map fun b => if b then some seen else none⟩
  | apart {seen l r a} : h.typeOf l = h.typeOf r → (h.shape l).address? = some a →
      (h.shape r).address? = none → Likens seen l r ⟨[], 1, .ok none⟩
  | again {seen l r a b} : h.typeOf l = h.typeOf r → (h.shape l).address? = some a →
      (h.shape r).address? = some b → a ∈ seen ∨ b ∈ seen →
      Likens seen l r ⟨[], 1, .ok (if a == b then some seen else none)⟩
  | untold {seen l r a b f} : h.typeOf l = h.typeOf r → (h.shape l).address? = some a →
      (h.shape r).address? = some b → ¬ (a ∈ seen ∨ b ∈ seen) →
      h.likePairs (h.shape l) (h.shape r) = .error f → Likens seen l r ⟨[(a, b)], 1, .error f⟩
  | differ {seen l r a b} : h.typeOf l = h.typeOf r → (h.shape l).address? = some a →
      (h.shape r).address? = some b → ¬ (a ∈ seen ∨ b ∈ seen) →
      h.likePairs (h.shape l) (h.shape r) = .ok none → Likens seen l r ⟨[(a, b)], 1, .ok none⟩
  | members {seen l r a b pairs t} : h.typeOf l = h.typeOf r → (h.shape l).address? = some a →
      (h.shape r).address? = some b → ¬ (a ∈ seen ∨ b ∈ seen) →
      h.likePairs (h.shape l) (h.shape r) = .ok (some pairs) →
      LikensEach (enterComposite (enterComposite seen a) b) pairs t →
      Likens seen l r ⟨(a, b) :: t.entered, t.depth + 1, t.result⟩
/-- Pairs are compared one after the other, until two are not alike or there is a failure. -/
inductive LikensEach : List Address → Walk (Value × Value) → Trip (Address × Address) Likeness →
    Prop where
  | nil {seen} : LikensEach seen [] ⟨[], 0, .ok (some seen)⟩
  | untold {seen f rest} : LikensEach seen (.error f :: rest) ⟨[], 0, .error f⟩
  | last {seen x y rest t} : Likens seen x y t → (∀ seen', t.result ≠ .ok (some seen')) →
      LikensEach seen (.ok (x, y) :: rest) t
  | next {seen x y rest t seen' u} : Likens seen x y t → t.result = .ok (some seen') →
      LikensEach seen' rest u → LikensEach seen (.ok (x, y) :: rest)
        ⟨t.entered ++ u.entered, max t.depth u.depth, u.result⟩
end

/-- What is raised where leaves are compared, fields are told or keys are looked up. -/
def Incomparable (f : Fault) : Prop :=
  (∃ x y, h.leafEqual x y = .error f) ∨ (∃ s t, h.likePairs s t = .error f) ∨
    ∃ s t pairs, h.likePairs s t = .ok (some pairs) ∧ .error f ∈ pairs

/-- Pairs of composites that had not been entered have been, each composite once on each side, and no
    call is nested deeper than that. -/
structure VisitsPairs (seen : List Address) (entered : List (Address × Address)) (depth : Nat) :
    Prop where
  lefts : (entered.map (·.1)).Nodup
  rights : (entered.map (·.2)).Nodup
  fresh : ∀ p ∈ entered, (p.1 ∈ h.compounds ∧ p.1 ∉ seen) ∧ p.2 ∈ h.compounds ∧ p.2 ∉ seen
  depth : depth ≤ entered.length + 1

/-- What counts as entered after pairs have been. -/
def Covers (seen : List Address) (entered : List (Address × Address)) (last : List Address) : Prop :=
  ∀ c, c ∈ last ↔ c ∈ seen ∨ ∃ p ∈ entered, c = p.1 ∨ c = p.2

/-- An answer tells what counts as entered then, or what has been raised. -/
structure Justified (seen : List Address) (entered : List (Address × Address)) (answer : Likeness) :
    Prop where
  covers : ∀ last, answer = .ok (some last) → Covers seen entered last
  raised : ∀ f, answer = .error f → h.Incomparable f

/-- There is one trip of a kind.  It gives a given answer, and visits each composite once on each
    side. -/
def Decides (R : Trip (Address × Address) Likeness → Prop) (seen : List Address)
    (answer : Likeness) : Prop :=
  ∃ t, R t ∧ (∀ u, R u → u = t) ∧ t.result = answer ∧ h.VisitsPairs seen t.entered t.depth ∧
    h.Justified seen t.entered t.result

variable {h} {seen : List Address}

/-! ## Visits -/

theorem VisitsPairs.none {depth : Nat} (shallow : depth ≤ 1) : h.VisitsPairs seen [] depth :=
  ⟨List.nodup_nil, List.nodup_nil, by simp, shallow⟩

theorem covers_none : Covers seen [] seen := fun c => by simp

theorem Covers.subset {entered : List (Address × Address)} {last : List Address}
    (covers : Covers seen entered last) : ∀ c ∈ seen, c ∈ last :=
  fun c old => (covers c).mpr (.inl old)

theorem Covers.append {entered entered' : List (Address × Address)} {last last' : List Address}
    (first : Covers seen entered last) (second : Covers last entered' last') :
    Covers seen (entered ++ entered') last' := by
  intro c
  simp only [second c, first c, List.mem_append, or_and_right, exists_or, or_assoc]

theorem VisitsPairs.append {entered entered' : List (Address × Address)} {last : List Address}
    {depth depth' : Nat} (first : h.VisitsPairs seen entered depth)
    (covers : Covers seen entered last) (second : h.VisitsPairs last entered' depth') :
    h.VisitsPairs seen (entered ++ entered') (max depth depth') where
  lefts := by
    rw [List.map_append]
    refine List.nodup_append.mpr ⟨first.lefts, second.lefts, fun c here d later same => ?_⟩
    obtain ⟨p, inside, rfl⟩ := List.mem_map.mp here
    obtain ⟨q, inside', rfl⟩ := List.mem_map.mp later
    exact (second.fresh q inside').1.2 ((covers _).mpr (.inr ⟨p, inside, .inl same.symm⟩))
  rights := by
    rw [List.map_append]
    refine List.nodup_append.mpr ⟨first.rights, second.rights, fun c here d later same => ?_⟩
    obtain ⟨p, inside, rfl⟩ := List.mem_map.mp here
    obtain ⟨q, inside', rfl⟩ := List.mem_map.mp later
    exact (second.fresh q inside').2.2 ((covers _).mpr (.inr ⟨p, inside, .inr same.symm⟩))
  fresh p inside := by
    rcases List.mem_append.mp inside with here | later
    · exact first.fresh p here
    · obtain ⟨⟨left, new⟩, right, new'⟩ := second.fresh p later
      exact ⟨⟨left, fun old => new (covers.subset _ old)⟩, right,
        fun old => new' (covers.subset _ old)⟩
  depth := by
    have below := first.depth
    have below' := second.depth
    rw [List.length_append]
    omega

theorem mem_entered {a b c : Address} :
    c ∈ enterComposite (enterComposite seen a) b ↔ c ∈ seen ∨ c = a ∨ c = b := by
  rw [mem_enterComposite, mem_enterComposite, or_assoc]

theorem Covers.enter {a b : Address} {entered : List (Address × Address)} {last : List Address}
    (covers : Covers (enterComposite (enterComposite seen a) b) entered last) :
    Covers seen ((a, b) :: entered) last := by
  intro c
  rw [covers, mem_entered, or_assoc]
  simp only [List.mem_cons, exists_eq_or_imp]

theorem VisitsPairs.enter {a b : Address} {entered : List (Address × Address)} {depth : Nat}
    (left : a ∈ h.compounds) (right : b ∈ h.compounds) (new : ¬ (a ∈ seen ∨ b ∈ seen))
    (inner : h.VisitsPairs (enterComposite (enterComposite seen a) b) entered depth) :
    h.VisitsPairs seen ((a, b) :: entered) (depth + 1) where
  lefts := by
    refine List.nodup_cons.mpr ⟨fun again => ?_, inner.lefts⟩
    obtain ⟨p, inside, same⟩ := List.mem_map.mp again
    exact (inner.fresh p inside).1.2 (mem_entered.mpr (.inr (.inl same)))
  rights := by
    refine List.nodup_cons.mpr ⟨fun again => ?_, inner.rights⟩
    obtain ⟨p, inside, same⟩ := List.mem_map.mp again
    exact (inner.fresh p inside).2.2 (mem_entered.mpr (.inr (.inr same)))
  fresh := by
    obtain ⟨new, new'⟩ := not_or.mp new
    refine List.forall_mem_cons.mpr ⟨⟨⟨left, new⟩, right, new'⟩, fun p later => ?_⟩
    obtain ⟨⟨inside, other⟩, inside', other'⟩ := inner.fresh p later
    exact ⟨⟨inside, fun old => other (mem_entered.mpr (.inl old))⟩, inside',
      fun old => other' (mem_entered.mpr (.inl old))⟩
  depth := by
    have below := inner.depth
    rw [List.length_cons]
    omega

/-! ## Answers -/

section Answers

variable {entered : List (Address × Address)}

theorem justified_alike {last : List Address} (covers : Covers seen entered last) :
    h.Justified seen entered (.ok (some last)) where
  covers last' same := by
    cases same
    exact covers
  raised f same := by cases same

theorem justified_differ : h.Justified seen entered (.ok none) where
  covers last same := by cases same
  raised f same := by cases same

theorem justified_error {f : Fault} (raised : h.Incomparable f) :
    h.Justified seen entered (.error f) where
  covers last same := by cases same
  raised g same := by
    cases same
    exact raised

theorem justified_same (same : Bool) :
    h.Justified seen [] (.ok (if same then some seen else none)) := by
  cases same with
  | false => exact justified_differ
  | true => exact justified_alike covers_none

end Answers

/-! ## Pairs -/

variable {like : List Address → Value → Value → Likeness}

theorem decides_each {pairs : Walk (Value × Value)}
    (likens : ∀ seen' l r, (∀ c ∈ seen, c ∈ seen') →
      h.Decides (h.Likens seen' l r) seen' (like seen' l r))
    (untold : ∀ f, .error f ∈ pairs → h.Incomparable f) :
    h.Decides (h.LikensEach seen pairs) seen (likeEach like seen pairs) := by
  induction pairs generalizing seen with
  | nil =>
      refine ⟨_, .nil, ?_, rfl, .none (Nat.zero_le 1), justified_alike covers_none⟩
      intro u run
      cases run with
      | nil => rfl
  | cons p rest ih =>
      cases p with
      | error f =>
          refine ⟨_, .untold, ?_, rfl, .none (Nat.zero_le 1),
            justified_error (untold f List.mem_cons_self)⟩
          intro u run
          cases run with
          | untold => rfl
      | ok p =>
          obtain ⟨x, y⟩ := p
          obtain ⟨t, run, only, result, visits, justified⟩ := likens seen x y fun _ => id
          by_cases alike : ∃ last, t.result = .ok (some last)
          · obtain ⟨last, told⟩ := alike
            have covers := justified.covers last told
            obtain ⟨u, run', only', result', visits', justified'⟩ :=
              ih (fun seen' l r more => likens seen' l r fun c old => more c (covers.subset c old))
                fun f later => untold f (List.mem_cons_of_mem _ later)
            refine ⟨_, .next run told run', ?_, ?_, visits.append covers visits',
              fun last' ended => covers.append (justified'.covers last' ended), justified'.raised⟩
            · intro w run''
              cases run'' with
              | last run'' ended =>
                  cases only _ run''
                  exact absurd told (ended last)
              | next run'' told' run₃ =>
                  cases only _ run''
                  cases told.symm.trans told'
                  cases only' _ run₃
                  rfl
            · rw [likeEach, ← result, told]
              exact result'
          · have ended (last : List Address) : t.result ≠ .ok (some last) :=
              fun told => alike ⟨last, told⟩
            refine ⟨t, .last run ended, ?_, ?_, visits, justified⟩
            · intro w run''
              cases run'' with
              | last run'' => exact only _ run''
              | next run'' told =>
                  cases only _ run''
                  exact absurd told (ended _)
            · rw [likeEach, ← result]
              split
              · exact absurd ‹_› (ended _)
              · rfl

/-- Leaves are compared as they are. -/
theorem decides_leaf {budget : Nat} {l r : Value} (types : h.typeOf l = h.typeOf r)
    (left : (h.shape l).address? = none) :
    h.Decides (h.Likens seen l r) seen (h.likeWithin (budget + 1) seen l r) := by
  refine ⟨_, .leaf types left, fun u run => by cases run <;> simp_all,
    by simp [likeWithin, types, left], .none (Nat.le_refl 1), ?_⟩
  cases equal : h.leafEqual l r with
  | error f => exact justified_error (.inl ⟨l, r, equal⟩)
  | ok b => exact justified_same b

/-- Composites are compared by identity where one of them has been entered, and are entered
    otherwise. -/
theorem decides_composites {budget : Nat} {l r : Value} {a b : Address}
    (types : h.typeOf l = h.typeOf r) (left : (h.shape l).address? = some a)
    (right : (h.shape r).address? = some b) (inside : a ∈ h.compounds) (inside' : b ∈ h.compounds)
    (likens : ¬ (a ∈ seen ∨ b ∈ seen) → ∀ seen' l r,
      (∀ c ∈ enterComposite (enterComposite seen a) b, c ∈ seen') →
      h.Decides (h.Likens seen' l r) seen' (h.likeWithin budget seen' l r)) :
    h.Decides (h.Likens seen l r) seen (h.likeWithin (budget + 1) seen l r) := by
  by_cases met : a ∈ seen ∨ b ∈ seen
  · exact ⟨_, .again types left right met, fun u run => by cases run <;> simp_all,
      by simp [likeWithin, types, left, right, met], .none (Nat.le_refl 1), justified_same _⟩
  · have lone : h.VisitsPairs seen [(a, b)] 1 :=
      .enter inside inside' met (.none (Nat.zero_le 1))
    cases told : h.likePairs (h.shape l) (h.shape r) with
    | error f =>
        exact ⟨_, .untold types left right met told, fun u run => by cases run <;> simp_all,
          by simp [likeWithin, types, left, right, met, told], lone,
          justified_error (.inr (.inl ⟨_, _, told⟩))⟩
    | ok answer =>
        cases answer with
        | none =>
            exact ⟨_, .differ types left right met told, fun u run => by cases run <;> simp_all,
              by simp [likeWithin, types, left, right, met, told], lone, justified_differ⟩
        | some pairs =>
            obtain ⟨t, run, only, result, visits, justified⟩ :=
              decides_each (likens met) fun f failed => .inr (.inr ⟨_, _, pairs, told, failed⟩)
            refine ⟨_, .members types left right met told run, ?_,
              by simp [likeWithin, types, left, right, met, told, result],
              visits.enter inside inside' met,
              fun last ended => (justified.covers last ended).enter, justified.raised⟩
            intro u run'
            cases run' with
            | members _ left' right' _ told' run' =>
                cases left.symm.trans left'
                cases right.symm.trans right'
                cases told.symm.trans told'
                cases only _ run'
                rfl
            | _ => simp_all

/-- A comparison comes to its end with a budget that leaves a step for each composite to be
    entered. -/
theorem decides_likeWithin (contained : h.Contained) {budget : Nat} {l r : Value}
    (enough : h.room seen < budget) :
    h.Decides (h.Likens seen l r) seen (h.likeWithin budget seen l r) := by
  induction budget generalizing seen l r with
  | zero => exact absurd enough (Nat.not_lt_zero _)
  | succ budget ih =>
      by_cases types : h.typeOf l = h.typeOf r
      · cases left : (h.shape l).address? with
        | none => exact decides_leaf types left
        | some a =>
            cases right : (h.shape r).address? with
            | none =>
                exact ⟨_, .apart types left right, fun u run => by cases run <;> simp_all,
                  by simp [likeWithin, types, left, right], .none (Nat.le_refl 1), justified_differ⟩
            | some b =>
                have inside := contained.mem_compounds left
                refine decides_composites types left right inside (contained.mem_compounds right)
                  fun met seen' l r more => ih ?_
                have later : h.room seen' < h.room seen :=
                  room_enter inside (not_or.mp met).1
                    (fun c old => more c (mem_entered.mpr (.inl old)))
                    (more a (mem_entered.mpr (.inr (.inl rfl))))
                omega
      · exact ⟨_, .types types, fun u run => by cases run <;> simp_all,
          by simp [likeWithin, types], .none (Nat.le_refl 1), justified_differ⟩

/-- Taking a snapshot and comparing two values come to their end, whatever composites count as
    entered before.  There is one way through, which the budgets that they are run with do not cut
    short.  Every composite is entered once, and by a comparison once on each side, so calls are
    nested no deeper than there are composites, and a leaf. -/
theorem walks_terminate (contained : h.Contained) :
    (∀ seen label v, ∃ t, h.Takes seen label v t ∧ (∀ u, h.Takes seen label v u → u = t) ∧
      t.result = h.buildSnapshot seen label v ∧ h.Accounted t.result.2 ∧ t.entered.Nodup ∧
      (∀ a ∈ t.entered, a ∈ h.compounds ∧ a ∉ seen) ∧ t.depth ≤ h.compounds.length + 1) ∧
    ∀ seen l r, ∃ t, h.Likens seen l r t ∧ (∀ u, h.Likens seen l r u → u = t) ∧
      t.result.map (·.isSome) = h.likeFrom seen l r ∧
      (∀ f, t.result = .error f → h.Incomparable f) ∧
      (t.entered.map (·.1)).Nodup ∧ (t.entered.map (·.2)).Nodup ∧
      (∀ p ∈ t.entered, (p.1 ∈ h.compounds ∧ p.1 ∉ seen) ∧ p.2 ∈ h.compounds ∧ p.2 ∉ seen) ∧
      t.depth ≤ h.compounds.length + 1 := by
  constructor
  · intro seen label v
    have ended : h.Concludes (h.Takes seen label v) seen (h.buildSnapshot seen label v) :=
      concludes_buildWithin contained (Nat.lt_succ_of_le (room_le seen))
    obtain ⟨t, run, only, result, visits, accounted⟩ := ended
    have fewer := length_le_compounds visits.once fun a inside => (visits.fresh a inside).1
    exact ⟨t, run, only, result, accounted, visits.once, visits.fresh,
      Nat.le_trans visits.depth (Nat.succ_le_succ fewer)⟩
  · intro seen l r
    obtain ⟨t, run, only, result, visits, justified⟩ :=
      decides_likeWithin contained (l := l) (r := r) (Nat.lt_succ_of_le (room_le seen))
    have fewer := length_le_compounds visits.lefts fun c inside => by
      obtain ⟨p, present, rfl⟩ := List.mem_map.mp inside
      exact (visits.fresh p present).1.1
    rw [List.length_map] at fewer
    exact ⟨t, run, only, by rw [result, likeFrom], justified.raised, visits.lefts, visits.rights,
      visits.fresh, Nat.le_trans visits.depth (Nat.succ_le_succ fewer)⟩

/-- Lists that hold themselves, and each other by way of a dictionary. -/
def cycles : Heap where
  classes := Standard.classes []
  objects :=
    let list (items : List Value) : Object := { cls := "list", body := .sequence .list items }
    let dict (v : Value) : Object := { cls := "dict", body := .mapping .dict [(.text "k", v)] }
    #[list [.ref 0, .ref 2], list [.ref 0, .ref 3], dict (.ref 1), dict (.ref 0)]

/-- The walks through the cycles come to their end. -/
theorem walks_terminate_cycles : cycles.Contained ∧
    (∃ t, cycles.Takes [] .null (.ref 0) t ∧ t.result.1 = [0, 2, 1, 3] ∧ t.depth ≤ 5) ∧
    ∃ t, cycles.Likens [] (.ref 0) (.ref 1) t ∧ t.result = .ok none ∧ t.depth ≤ 5 := by
  have contained : cycles.Contained := contained_of_bare rfl
  obtain ⟨takes, likens⟩ := walks_terminate contained
  obtain ⟨t, run, _, result, _, _, _, depth⟩ := takes [] .null (.ref 0)
  obtain ⟨u, run', _, result', _, _, _, _, depth'⟩ := likens [] (.ref 0) (.ref 1)
  refine ⟨contained, ⟨t, run, by rw [result]; rfl, depth⟩, u, run', ?_, depth'⟩
  have unlike : cycles.likeFrom [] (.ref 0) (.ref 1) = .ok false := rfl
  rw [unlike] at result'
  cases answer : u.result with
  | error f => simp [answer, Except.map] at result'
  | ok r => cases r <;> simp_all [Except.map]

end Assay.Heap
