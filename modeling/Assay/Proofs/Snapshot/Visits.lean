import Assay.Proofs.Heap.Trip
import Assay.Proofs.Snapshot.Taken

/-! # What taking a snapshot visits

The walk through a value as it goes without a budget: what it enters, how deep its calls are nested
and what it returns, failures included.  It comes to its end wherever it starts, and that end is what
a budget of one step for each object gives.
-/

namespace Assay.Heap

variable (h : Heap)

/-- What a walk hands on: the composites that count as entered, and what it returns. -/
abbrev Handed (α : Type) := List Address × Except Fault α

mutual
/-- The snapshot of a value is taken. -/
inductive Takes : List Address → Value → Value → Trip Address (Handed Snapshot) → Prop where
  | leaf {seen label v} : (h.shape v).address? = none → Takes seen label v
      ⟨[], 1, seen, .ok (.node { label, type := h.typeOf v, isLeaf := true,
                                 content := h.freeze v } [])⟩
  | again {seen label v a} : (h.shape v).address? = some a → a ∈ seen → Takes seen label v
      ⟨[], 1, seen, .ok (.node { label, type := h.typeOf v, isLeaf := false, identity := some a,
                                 alreadyReferenced := true } [])⟩
  | untold {seen label v a f} : (h.shape v).address? = some a → a ∉ seen →
      h.parts (h.shape v) = .error f → Takes seen label v ⟨[a], 1, seen ++ [a], .error f⟩
  | whole {seen label v a walk t} : (h.shape v).address? = some a → a ∉ seen →
      h.parts (h.shape v) = .ok walk → TakesEach (seen ++ [a]) walk t → Takes seen label v
      ⟨a :: t.entered, t.depth + 1, t.result.1, (t.result.2.bind h.labelled).map
        (.node { label, type := h.typeOf v, isLeaf := false, identity := some a })⟩
/-- The snapshots of members are taken one after the other, until one fails. -/
inductive TakesEach : List Address → Walk Part → Trip Address (Handed (List (Key × Snapshot))) →
    Prop where
  | nil {seen} : TakesEach seen [] ⟨[], 0, seen, .ok []⟩
  | untold {seen f rest} : TakesEach seen (.error f :: rest) ⟨[], 0, seen, .error f⟩
  | failed {seen p rest t last f} : TakesPart seen p t → t.result = (last, .error f) →
      TakesEach seen (.ok p :: rest) ⟨t.entered, t.depth, last, .error f⟩
  | next {seen p rest t last child u} : TakesPart seen p t → t.result = (last, .ok child) →
      TakesEach last rest u → TakesEach seen (.ok p :: rest)
        ⟨t.entered ++ u.entered, max t.depth u.depth, u.result.1, u.result.2.map (child :: ·)⟩
/-- The snapshot of one member is taken, under its label. -/
inductive TakesPart : List Address → Part → Trip Address (Handed (Key × Snapshot)) → Prop where
  | item {seen i v t} : Takes seen (itemLabel i) v t → TakesPart seen (.item i v)
      ⟨t.entered, t.depth, t.result.1, t.result.2.map fun s => (.plain (itemLabel i), s)⟩
  | field {seen n v t} : Takes seen n v t → TakesPart seen (.field n v)
      ⟨t.entered, t.depth, t.result.1, t.result.2.bind fun s => (h.key n).map (·, s)⟩
  | unwritten {seen k v f} : h.repr k = .error f →
      TakesPart seen (.entry k v) ⟨[], 0, seen, .error f⟩
  | failed {seen k v text t last f} : h.repr k = .ok text → Takes seen (.text "key") k t →
      t.result = (last, .error f) →
      TakesPart seen (.entry k v) ⟨t.entered, t.depth, last, .error f⟩
  | entry {seen k v text t last s u} : h.repr k = .ok text → Takes seen (.text "key") k t →
      t.result = (last, .ok s) → Takes last (.text "value") v u → TakesPart seen (.entry k v)
        ⟨t.entered ++ u.entered, max t.depth u.depth, u.result.1,
          u.result.2.map fun s' => (.plain (entryLabel text),
            .node { label := entryLabel text, type := entryClass, isLeaf := false }
              [(.text "key", s), (.text "value", s')])⟩
end

/-- What is raised where fields are told, keys are written or labels are told apart. -/
def Untold (f : Fault) : Prop :=
  (∃ s, h.parts s = .error f) ∨ (∃ s walk, h.parts s = .ok walk ∧ .error f ∈ walk) ∨
    (∃ v, h.repr v = .error f) ∨ (∃ v, h.key v = .error f) ∨ ∃ es, h.labelled es = .error f

/-- Nothing else is raised. -/
def Accounted {α : Type} (result : Except Fault α) : Prop := ∀ f, result = .error f → h.Untold f

/-- What has been entered is composites that had not been, each of them once, and no call is nested
    deeper than that. -/
structure Visits (seen entered last : List Address) (depth : Nat) : Prop where
  last : last = seen ++ entered
  once : entered.Nodup
  fresh : ∀ a ∈ entered, a ∈ h.compounds ∧ a ∉ seen
  depth : depth ≤ entered.length + 1

/-- There is one trip of a kind.  It hands on a given result, and visits each composite once. -/
def Concludes {α : Type} (R : Trip Address (Handed α) → Prop) (seen : List Address)
    (result : Handed α) : Prop :=
  ∃ t, R t ∧ (∀ u, R u → u = t) ∧ t.result = result ∧
    h.Visits seen t.entered t.result.1 t.depth ∧ h.Accounted t.result.2

variable {h} {seen : List Address}

/-! ## Visits -/

theorem Visits.none {depth : Nat} (shallow : depth ≤ 1) : h.Visits seen [] seen depth :=
  ⟨by simp, List.nodup_nil, by simp, shallow⟩

theorem Visits.subset {entered last : List Address} {depth : Nat}
    (visits : h.Visits seen entered last depth) : ∀ a ∈ seen, a ∈ last := by
  rw [visits.last]
  exact fun a => List.mem_append_left _

theorem Visits.append {entered entered' last last' : List Address} {depth depth' : Nat}
    (first : h.Visits seen entered last depth) (second : h.Visits last entered' last' depth') :
    h.Visits seen (entered ++ entered') last' (max depth depth') where
  last := by rw [second.last, first.last, List.append_assoc]
  once := by
    refine List.nodup_append.mpr ⟨first.once, second.once, fun a here b later same => ?_⟩
    refine (second.fresh b later).2 ?_
    rw [first.last, ← same]
    exact List.mem_append_right _ here
  fresh a inside := by
    rcases List.mem_append.mp inside with here | later
    · exact first.fresh a here
    · exact (second.fresh a later).imp_right fun new old => new (first.subset a old)
  depth := by
    have below := first.depth
    have below' := second.depth
    rw [List.length_append]
    omega

theorem Visits.enter {a : Address} {entered last : List Address} {depth : Nat}
    (inside : a ∈ h.compounds) (new : a ∉ seen)
    (inner : h.Visits (seen ++ [a]) entered last depth) :
    h.Visits seen (a :: entered) last (depth + 1) where
  last := by rw [inner.last, List.append_assoc, List.singleton_append]
  once := by
    refine List.nodup_cons.mpr ⟨fun again => (inner.fresh a again).2 ?_, inner.once⟩
    exact List.mem_append_right _ List.mem_cons_self
  fresh := by
    refine List.forall_mem_cons.mpr ⟨⟨inside, new⟩, fun b later => ?_⟩
    exact (inner.fresh b later).imp_right fun other old => other (List.mem_append_left _ old)
  depth := by
    have below := inner.depth
    rw [List.length_cons]
    omega

/-! ## Faults -/

section Faults

variable {α β : Type} {result : Except Fault α}

theorem accounted_ok (x : α) : h.Accounted (.ok x) :=
  fun _ same => by cases same

theorem accounted_error {f : Fault} (untold : h.Untold f) : h.Accounted (.error (α := α) f) := by
  intro g same
  exact Except.error.inj same ▸ untold

theorem Accounted.map (accounted : h.Accounted result) (g : α → β) :
    h.Accounted (result.map g) := by
  intro f failed
  cases result with
  | error e =>
      cases failed
      exact accounted f rfl
  | ok x => cases failed

theorem Accounted.bind (accounted : h.Accounted result) {g : α → Except Fault β}
    (rest : ∀ x, h.Accounted (g x)) : h.Accounted (result.bind g) := by
  intro f failed
  cases result with
  | error e =>
      cases failed
      exact accounted f rfl
  | ok x => exact rest x f failed

end Faults

/-! ## Members -/

section Members

variable {build : List Address → Value → Value → Handed Snapshot}

variable (h) in
/-- Values are built as they are taken, wherever at least some composites count as entered. -/
def BuildsTaken (build : List Address → Value → Value → Handed Snapshot) (seen : List Address) :
    Prop :=
  ∀ seen' label v, (∀ a ∈ seen, a ∈ seen') →
    h.Concludes (h.Takes seen' label v) seen' (build seen' label v)

theorem BuildsTaken.later {seen' : List Address} (builds : h.BuildsTaken build seen)
    (more : ∀ a ∈ seen, a ∈ seen') : h.BuildsTaken build seen' :=
  fun seen'' label v more' => builds seen'' label v fun a old => more' a (more a old)

theorem concludes_part (builds : h.BuildsTaken build seen) (p : Part) :
    h.Concludes (h.TakesPart seen p) seen (h.buildPart build seen p) := by
  cases p with
  | item i v =>
      obtain ⟨t, run, only, result, visits, accounted⟩ := builds seen (itemLabel i) v fun _ => id
      refine ⟨_, .item run, ?_, by simp only [buildPart, ← result], visits, accounted.map _⟩
      intro u run'
      cases run' with
      | item run' => rw [only _ run']
  | field n v =>
      obtain ⟨t, run, only, result, visits, accounted⟩ := builds seen n v fun _ => id
      have named (s : Snapshot) : h.Accounted ((h.key n).map fun key => (key, s)) :=
        Accounted.map (fun f failed => .inr (.inr (.inr (.inl ⟨n, failed⟩)))) _
      refine ⟨_, .field run, ?_, ?_, visits, accounted.bind named⟩
      · intro u run'
        cases run' with
        | field run' => rw [only _ run']
      · simp only [buildPart, ← result]
        rcases t.result with ⟨last, f | s⟩ <;> rfl
  | entry k v =>
      cases told : h.repr k with
      | error f =>
          refine ⟨_, .unwritten told, ?_, by simp only [buildPart, told], .none (Nat.zero_le 1),
            accounted_error (.inr (.inr (.inl ⟨k, told⟩)))⟩
          intro u run
          cases run with
          | unwritten told' =>
              cases told.symm.trans told'
              rfl
          | failed told' | entry told' => cases told.symm.trans told'
      | ok text =>
          obtain ⟨t, run, only, result, visits, accounted⟩ :=
            builds seen (.text "key") k fun _ => id
          rcases handed : t.result with ⟨last, f | s⟩
          · rw [handed] at visits accounted
            refine ⟨_, .failed told run handed, ?_, ?_, visits, accounted_error (accounted f rfl)⟩
            · intro u run'
              cases run' with
              | unwritten told' => cases told.symm.trans told'
              | failed _ run' handed' =>
                  cases only _ run'
                  cases handed.symm.trans handed'
                  rfl
              | entry _ run' handed' =>
                  cases only _ run'
                  cases handed.symm.trans handed'
            · simp only [buildPart, told, ← result, handed]
          · rw [handed] at visits
            obtain ⟨u, run', only', result', visits', accounted'⟩ :=
              builds last (.text "value") v visits.subset
            refine ⟨_, .entry told run handed run', ?_, ?_, visits.append visits',
              accounted'.map _⟩
            · intro w run''
              cases run'' with
              | unwritten told' => cases told.symm.trans told'
              | failed _ run'' handed' =>
                  cases only _ run''
                  cases handed.symm.trans handed'
              | entry told' run'' handed' run₃ =>
                  cases told.symm.trans told'
                  cases only _ run''
                  cases handed.symm.trans handed'
                  cases only' _ run₃
                  rfl
            · simp only [buildPart, told, ← result, handed, ← result']

theorem concludes_each {walk : Walk Part} (builds : h.BuildsTaken build seen)
    (untold : ∀ f, .error f ∈ walk → h.Untold f) :
    h.Concludes (h.TakesEach seen walk) seen (walkEach (h.buildPart build) seen walk) := by
  induction walk generalizing seen with
  | nil =>
      refine ⟨_, .nil, ?_, rfl, .none (Nat.zero_le 1), accounted_ok _⟩
      rintro _ ⟨⟩
      rfl
  | cons p rest ih =>
      cases p with
      | error f =>
          refine ⟨_, .untold, ?_, rfl, .none (Nat.zero_le 1),
            accounted_error (untold f List.mem_cons_self)⟩
          rintro _ ⟨⟩
          rfl
      | ok p =>
          obtain ⟨t, run, only, result, visits, accounted⟩ := concludes_part builds p
          rcases handed : t.result with ⟨last, f | child⟩
          · rw [handed] at visits accounted
            refine ⟨_, .failed run handed, ?_, ?_, visits, accounted_error (accounted f rfl)⟩
            · intro u run'
              cases run' with
              | failed run' handed' =>
                  cases only _ run'
                  cases handed.symm.trans handed'
                  rfl
              | next run' handed' =>
                  cases only _ run'
                  cases handed.symm.trans handed'
            · simp only [walkEach, ← result, handed]
          · rw [handed] at visits
            obtain ⟨u, run', only', result', visits', accounted'⟩ :=
              ih (builds.later visits.subset) fun f later => untold f (List.mem_cons_of_mem _ later)
            refine ⟨_, .next run handed run', ?_, ?_, visits.append visits', accounted'.map _⟩
            · intro w run''
              cases run'' with
              | failed run'' handed' =>
                  cases only _ run''
                  cases handed.symm.trans handed'
              | next run'' handed' run₃ =>
                  cases only _ run''
                  cases handed.symm.trans handed'
                  cases only' _ run₃
                  rfl
            · simp only [walkEach, ← result, handed, ← result']

end Members

/-- A composite that has not been entered is entered. -/
theorem concludes_composite {budget : Nat} {label v : Value} {a : Address}
    (address : (h.shape v).address? = some a) (inside : a ∈ h.compounds) (new : a ∉ seen)
    (builds : h.BuildsTaken (h.buildWithin budget) (seen ++ [a])) :
    h.Concludes (h.Takes seen label v) seen (h.buildWithin (budget + 1) seen label v) := by
  cases told : h.parts (h.shape v) with
  | error f =>
      exact ⟨_, .untold address new told, fun u run => by cases run <;> simp_all,
        by simp [buildWithin, address, new, told], .enter inside new (.none (Nat.zero_le 1)),
        accounted_error (.inl ⟨_, told⟩)⟩
  | ok walk =>
      obtain ⟨t, run, only, result, visits, accounted⟩ :=
        concludes_each builds fun f failed => .inr (.inl ⟨_, walk, told, failed⟩)
      have labelled (es : List (Key × Snapshot)) : h.Accounted (h.labelled es) :=
        fun f failed => .inr (.inr (.inr (.inr ⟨es, failed⟩)))
      refine ⟨_, .whole address new told run, ?_, by simp [buildWithin, address, new, told, result],
        visits.enter inside new, (accounted.bind labelled).map _⟩
      intro u run'
      cases run' with
      | whole address' _ told' run' =>
          cases address.symm.trans address'
          cases told.symm.trans told'
          cases only _ run'
          rfl
      | _ => simp_all

/-- A walk comes to its end with a budget that leaves a step for each composite to be entered. -/
theorem concludes_buildWithin (contained : h.Contained) {budget : Nat} {label v : Value}
    (enough : h.room seen < budget) :
    h.Concludes (h.Takes seen label v) seen (h.buildWithin budget seen label v) := by
  induction budget generalizing seen label v with
  | zero => exact absurd enough (Nat.not_lt_zero _)
  | succ budget ih =>
      cases address : (h.shape v).address? with
      | none =>
          exact ⟨_, .leaf address, fun u run => by cases run <;> simp_all,
            by simp only [buildWithin, address], .none (Nat.le_refl 1), accounted_ok _⟩
      | some a =>
          by_cases met : a ∈ seen
          · exact ⟨_, .again address met, fun u run => by cases run <;> simp_all,
              by simp [buildWithin, address, met], .none (Nat.le_refl 1), accounted_ok _⟩
          · have inside := contained.mem_compounds address
            have later : h.room (seen ++ [a]) < h.room seen :=
              room_enter inside met (fun b => List.mem_append_left _)
                (List.mem_append_right _ List.mem_cons_self)
            exact concludes_composite address inside met fun seen' label v more =>
              ih (Nat.lt_of_le_of_lt (room_mono more) (by omega))

end Assay.Heap
