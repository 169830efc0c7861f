import Assay.Proofs.Heap.Entered
import Assay.Proofs.Likeness.Found
import Assay.Proofs.Likeness.Unfolding

/-! # Likeness and sharing

Two values that unfold to one finite tree are the same up to the objects that hold them.  Passing
through the tree, a comparison comes by pairs of composites, the left ones and the right ones at the
same places.

What it has entered it never leaves again.  A pair of which a composite was met before, be it on the
other side, is not looked into any more; it is alike only if it is one object.  So a comparison of
equal trees depends on how their composites are shared, and on nothing else.
-/

namespace Assay.Heap

variable (h : Heap)

/-! ## Finite trees -/

/-- Two composites at the same place of a tree. -/
abbrev Meeting := Address × Address

/-- The members of two composites with one kind of members, in pairs. -/
inductive Members (x y : Value) : Meeting → List (Value × Value) → Prop where
  | sequence {a b xs ys} : h.shape x = .sequence a xs → h.shape y = .sequence b ys →
      xs.length = ys.length → Members x y (a, b) (xs.zip ys)
  | mapping {a b kind kind' es es' m} : h.shape x = .mapping a kind es →
      h.shape y = .mapping b kind' es' → h.Matching es es' m →
      Members x y (a, b) (matchedValues m)
  | structured {a b es es' m} : h.shape x = .structured a → h.shape y = .structured b →
      h.fields a = .ok es → h.fields b = .ok es' → h.Matching es es' m →
      Members x y (a, b) (matchedValues m)

/-- Values that unfold, pair by pair, to one finite tree.  The trail has the composites of the trees
    in the order in which they are passed. -/
inductive Trail : List (Value × Value) → List Meeting → Prop where
  | done : Trail [] []
  | leaf {x y pairs t} : h.typeOf x = h.typeOf y → h.isLeaf x → h.isLeaf y →
      h.leafEqual x y = .ok true → Trail pairs t → Trail ((x, y) :: pairs) t
  | composite {x y q members inner pairs t} : h.typeOf x = h.typeOf y →
      h.Members x y q members → Trail members inner → Trail pairs t →
      Trail ((x, y) :: pairs) (q :: inner ++ t)

/-- All composites of a trail. -/
def composites (t : List Meeting) : List Address := t.flatMap fun q => [q.1, q.2]

/-- A pair is of one object, unless neither of it was met before. -/
def Settles (seen : List Address) (q : Meeting) : Prop := q.1 ∈ seen ∨ q.2 ∈ seen → q.1 = q.2

/-- Composites that were met before are met again only with themselves. -/
def Steady (t : List Meeting) : Prop := t.Pairwise fun p q => Settles [p.1, p.2] q

instance (seen : List Address) (q : Meeting) : Decidable (Settles seen q) :=
  inferInstanceAs (Decidable (_ → _))

instance (t : List Meeting) : Decidable (Steady t) :=
  inferInstanceAs (Decidable (List.Pairwise _ _))

variable {h}

/-! ## Members -/

theorem Files.unique {v : Value} {es es' : List (Key × Value)} (files : h.Files v es)
    (files' : h.Files v es') : es = es' := by
  cases files with
  | mapping shape =>
      cases files' with
      | mapping shape' => cases shape.symm.trans shape'; rfl
      | fields shape' _ => cases shape.symm.trans shape'
  | fields shape own =>
      cases files' with
      | mapping shape' => cases shape.symm.trans shape'
      | fields shape' own' =>
          cases shape.symm.trans shape'
          exact Except.ok.inj (own.symm.trans own')

theorem holds_sequence {v u : Value} {a : Address} {xs : List Value}
    (shape : h.shape v = .sequence a xs) : h.Holds v u ↔ u ∈ xs := by
  refine ⟨fun holds => ?_, .item shape⟩
  cases holds with
  | item own inside => cases shape.symm.trans own; exact inside
  | entry files _ =>
      cases files with
      | mapping own | fields own => cases shape.symm.trans own

theorem holds_files {v u : Value} {es : List (Key × Value)} (files : h.Files v es) :
    h.Holds v u ↔ u ∈ es.map (·.2) := by
  refine ⟨fun holds => ?_, fun inside => ?_⟩
  · cases holds with
    | item own =>
        cases files with
        | mapping shape | fields shape => cases shape.symm.trans own
    | entry files' inside => exact files.unique files' ▸ List.mem_map_of_mem inside
  · obtain ⟨e, member, rfl⟩ := List.mem_map.mp inside
    exact .entry files member

theorem not_holds_leaf {v u : Value} (leaf : h.isLeaf v) : ¬ h.Holds v u := by
  intro holds
  cases holds with
  | item shape => simp [isLeaf, kind, shape, Shape.kind] at leaf
  | entry files =>
      cases files with
      | mapping shape | fields shape => simp [isLeaf, kind, shape, Shape.kind] at leaf

theorem Matching.lefts {es es' : List (Key × Value)} {m : List ((Key × Value) × (Key × Value))}
    (matching : h.Matching es es' m) : (matchedValues m).map (·.1) = es.map (·.2) := by
  rw [← matching.left, matchedValues, List.map_map, List.map_map]
  rfl

theorem Matching.rights {es es' : List (Key × Value)} {m : List ((Key × Value) × (Key × Value))}
    (matching : h.Matching es es' m) : ((matchedValues m).map (·.2)).Perm (es'.map (·.2)) := by
  have perm := matching.right.map (·.2)
  rw [List.map_map] at perm
  rwa [matchedValues, List.map_map]

namespace Members

variable {x y u : Value} {q : Meeting} {members : List (Value × Value)}

theorem address_left (of : h.Members x y q members) : (h.shape x).address? = some q.1 := by
  cases of with
  | sequence shape | mapping shape | structured shape => rw [shape, Shape.address?]

theorem address_right (of : h.Members x y q members) : (h.shape y).address? = some q.2 := by
  cases of with
  | sequence _ shape | mapping _ shape | structured _ shape => rw [shape, Shape.address?]

/-- The pairs have all that the left composite holds. -/
theorem holds_left (of : h.Members x y q members) : h.Holds x u ↔ u ∈ members.map (·.1) := by
  cases of with
  | sequence shape _ size => rw [holds_sequence shape, List.map_fst_zip (Nat.le_of_eq size)]
  | mapping shape _ matching => rw [holds_files (.mapping shape), matching.lefts]
  | structured shape _ own _ matching => rw [holds_files (.fields shape own), matching.lefts]

/-- The pairs have all that the right composite holds. -/
theorem holds_right (of : h.Members x y q members) : h.Holds y u ↔ u ∈ members.map (·.2) := by
  cases of with
  | sequence _ shape size =>
      rw [holds_sequence shape, List.map_snd_zip (Nat.le_of_eq size.symm)]
  | mapping _ shape matching => rw [holds_files (.mapping shape), matching.rights.mem_iff]
  | structured _ shape _ own matching =>
      rw [holds_files (.fields shape own), matching.rights.mem_iff]

/-- A composite pairs its own members with themselves. -/
theorem self (of : h.Members x x q members)
    (apart : ∀ es, h.Files x es → h.KeysApart (es.map (·.1))) : ∀ p ∈ members, p.1 = p.2 := by
  cases of with
  | sequence shape shape' =>
      cases shape.symm.trans shape'
      intro p inside
      obtain ⟨i, below, rfl⟩ := List.getElem_of_mem inside
      rw [List.getElem_zip]
  | mapping shape shape' matching =>
      cases shape.symm.trans shape'
      exact matching.self (apart _ (.mapping shape))
  | structured shape shape' own own' matching =>
      cases shape.symm.trans shape'
      cases own.symm.trans own'
      exact matching.self (apart _ (.fields shape own))

/-- A comparison goes on with the members in pairs, but for some leaves that it has passed. -/
theorem likePairs {K : Key → Prop} (of : h.Members x y q members)
    (keys : ∀ es es', h.Files x es → h.Files y es' → h.SettledEntries K es es')
    (types : ∀ p ∈ members, h.typeOf p.1 = h.typeOf p.2)
    (leaves : ∀ p ∈ members, h.isLeaf p.1 → h.leafEqual p.1 p.2 = .ok true) :
    ∃ keep : Value × Value → Bool, (∀ p, keep p = false → h.isLeaf p.1) ∧
      h.likePairs (h.shape x) (h.shape y) = .ok (some ((members.filter keep).map .ok)) := by
  have all : ∀ p : Value × Value, (true = false) → h.isLeaf p.1 := fun _ absurd => nomatch absurd
  cases of with
  | sequence shape shape' size =>
      refine ⟨fun _ => true, all, ?_⟩
      simp [shape, shape', Heap.likePairs, size]
  | mapping shape shape' matching =>
      refine ⟨fun _ => true, all, ?_⟩
      have settled := keys _ _ (.mapping shape) (.mapping shape')
      simp [shape, shape', Heap.likePairs, matching.length, settled.entryPairs matching]
  | structured shape shape' own own' matching =>
      have settled := keys _ _ (.fields shape own) (.fields shape' own')
      refine ⟨fun p => !h.isLeaf p.1, by simp, ?_⟩
      simp [shape, shape', Heap.likePairs, fieldPairs, own, own', bind, Except.bind,
        settled.membersEqual matching, settled.pendingFields matching types leaves, Except.map]

end Members

/-! ## Composites within -/

variable (h) in
/-- A composite is found on a way down from a value. -/
def HasComposite (v : Value) (c : Address) : Prop :=
  ∃ u, h.Reaches v u ∧ (h.shape u).address? = some c

theorem HasComposite.reaches {v : Value} {c : Address} (has : h.HasComposite v c) :
    h.Reaches v (.ref c) := by
  obtain ⟨u, reached, address⟩ := has
  exact eq_ref_of_address address ▸ reached

theorem HasComposite.below {v u : Value} {c : Address} (has : h.HasComposite u c)
    (reached : h.Reaches v u) : h.HasComposite v c := by
  obtain ⟨w, onward, address⟩ := has
  exact ⟨w, reached.trans onward, address⟩

theorem not_hasComposite_leaf {v : Value} {c : Address} (leaf : h.isLeaf v) :
    ¬ h.HasComposite v c := by
  rintro ⟨u, reached, address⟩
  rcases reached.cases_head with rfl | ⟨w, holds, _⟩
  · cases address.symm.trans (isLeaf_iff.mp leaf)
  · exact not_holds_leaf leaf holds

/-- A composite has itself and the composites of its members. -/
theorem hasComposite_iff {v : Value} {a c : Address} (address : (h.shape v).address? = some a) :
    h.HasComposite v c ↔ c = a ∨ ∃ u, h.Holds v u ∧ h.HasComposite u c := by
  constructor
  · rintro ⟨u, reached, found⟩
    rcases reached.cases_head with rfl | ⟨w, holds, onward⟩
    · exact .inl (Option.some.inj (found.symm.trans address))
    · exact .inr ⟨w, holds, u, onward, found⟩
  · rintro (rfl | ⟨u, holds, has⟩)
    · exact ⟨v, .refl, address⟩
    · exact has.below (.single holds)

/-! ## What a trail passes -/

namespace Trail

variable {pairs : List (Value × Value)} {t : List Meeting}

/-- Two composites by themselves. -/
theorem root {x y : Value} {q : Meeting} (types : h.typeOf x = h.typeOf y)
    (of : h.Members x y q pairs) (trail : h.Trail pairs t) : h.Trail [(x, y)] (q :: t) := by
  have whole : h.Trail [(x, y)] (q :: t ++ []) := .composite types of trail .done
  rwa [List.append_nil] at whole

theorem typeOf_eq (trail : h.Trail pairs t) : ∀ p ∈ pairs, h.typeOf p.1 = h.typeOf p.2 := by
  induction trail with
  | done => simp
  | leaf types _ _ _ _ ih | composite types _ _ _ _ ih => simpa [types] using ih

theorem leafEqual (trail : h.Trail pairs t) :
    ∀ p ∈ pairs, h.isLeaf p.1 → h.leafEqual p.1 p.2 = .ok true := by
  induction trail with
  | done => simp
  | leaf _ _ _ equal _ ih =>
      intro p member _
      rcases List.mem_cons.mp member with rfl | later
      · exact equal
      · exact ih p later ‹_›
  | composite _ of _ _ _ ih =>
      intro p member leaf
      rcases List.mem_cons.mp member with rfl | later
      · exact absurd ⟨_, .refl, of.address_left⟩ (not_hasComposite_leaf leaf)
      · exact ih p later leaf

/-- What has a finite tree does not hold itself. -/
theorem grounded (trail : h.Trail pairs t) : ∀ p ∈ pairs,
    Acc (fun u v => h.Holds v u) p.1 ∧ Acc (fun u v => h.Holds v u) p.2 := by
  induction trail with
  | done => simp
  | leaf _ leaf leaf' _ _ ih =>
      intro p member
      rcases List.mem_cons.mp member with rfl | later
      · exact ⟨⟨_, fun _ holds => absurd holds (not_holds_leaf leaf)⟩,
          ⟨_, fun _ holds => absurd holds (not_holds_leaf leaf')⟩⟩
      · exact ih p later
  | composite _ of _ _ ihMembers ih =>
      intro p member
      rcases List.mem_cons.mp member with rfl | later
      · refine ⟨⟨_, fun u holds => ?_⟩, ⟨_, fun u holds => ?_⟩⟩
        · obtain ⟨p, inside, rfl⟩ := List.mem_map.mp (of.holds_left.mp holds)
          exact (ihMembers p inside).1
        · obtain ⟨p, inside, rfl⟩ := List.mem_map.mp (of.holds_right.mp holds)
          exact (ihMembers p inside).2
      · exact ih p later

/-- A trail passes all composites on either side. -/
theorem mem_composites (trail : h.Trail pairs t) (c : Address) : c ∈ composites t ↔
    ∃ p ∈ pairs, h.HasComposite p.1 c ∨ h.HasComposite p.2 c := by
  induction trail with
  | done => simp [composites]
  | leaf _ leaf leaf' _ _ ih =>
      rw [ih]
      simp [not_hasComposite_leaf leaf, not_hasComposite_leaf leaf']
  | @composite x y q members inner pairs t _ of _ _ ihMembers ih =>
      have split : composites (q :: inner ++ t) =
          q.1 :: q.2 :: composites inner ++ composites t := by
        simp [composites]
      have left := hasComposite_iff (c := c) of.address_left
      have right := hasComposite_iff (c := c) of.address_right
      simp only [of.holds_left, of.holds_right, List.mem_map] at left right
      rw [split]
      simp only [List.cons_append, List.mem_cons, List.mem_append, ihMembers, ih, exists_eq_or_imp,
        left, right]
      grind

/-- Pairs of one object unfold to pairs of one object. -/
theorem self (trail : h.Trail pairs t) (same : ∀ p ∈ pairs, p.1 = p.2)
    (apart : ∀ p ∈ pairs, ∀ v es, h.Reaches p.1 v → h.Files v es → h.KeysApart (es.map (·.1))) :
    ∀ q ∈ t, q.1 = q.2 := by
  induction trail with
  | done => simp
  | leaf _ _ _ _ _ ih =>
      exact ih (fun p later => same p (List.mem_cons_of_mem _ later))
        fun p later => apart p (List.mem_cons_of_mem _ later)
  | composite _ of _ _ ihMembers ih =>
      cases same _ List.mem_cons_self
      have own := apart _ List.mem_cons_self
      intro q member
      rcases List.mem_append.mp member with first | later
      · rcases List.mem_cons.mp first with rfl | inner
        · exact Option.some.inj (of.address_left.symm.trans of.address_right)
        · refine ihMembers (of.self fun es => own _ es .refl) ?_ q inner
          intro p inside v es reached
          have holds := of.holds_left.mpr (List.mem_map_of_mem inside)
          exact own v es (reached.head holds)
      · exact ih (fun p later => same p (List.mem_cons_of_mem _ later))
          (fun p later => apart p (List.mem_cons_of_mem _ later)) q later

end Trail

/-- What a value holds does not lead back to it. -/
theorem not_reaches_back {v u : Value} (grounded : Acc (fun u v => h.Holds v u) v)
    (holds : h.Holds v u) : ¬ h.Reaches u v := by
  induction grounded generalizing u with
  | intro v _ ih =>
      intro back
      rcases back.cases_head with rfl | ⟨w, first, onward⟩
      · exact ih _ holds holds .refl
      · exact ih u holds first (onward.tail holds)

/-! ## Steady trails -/

/-- After what was met before, composites are met again only with themselves. -/
def SteadyFrom (seen : List Address) (t : List Meeting) : Prop :=
  Steady t ∧ ∀ q ∈ t, Settles seen q

theorem steadyFrom_nil {t : List Meeting} : SteadyFrom [] t ↔ Steady t := by
  simp [SteadyFrom, Settles]

theorem SteadyFrom.self {seen : List Address} {t : List Meeting} (same : ∀ q ∈ t, q.1 = q.2) :
    SteadyFrom seen t :=
  ⟨List.pairwise_of_forall_mem_list fun _ _ q member _ => same q member,
    fun q member _ => same q member⟩

theorem steadyFrom_append {seen seen' : List Address} {t u : List Meeting}
    (now : ∀ c, c ∈ seen' ↔ c ∈ seen ∨ c ∈ composites t) :
    SteadyFrom seen (t ++ u) ↔ SteadyFrom seen t ∧ SteadyFrom seen' u := by
  have settles (q : Meeting) :
      Settles seen' q ↔ Settles seen q ∧ ∀ p ∈ t, Settles [p.1, p.2] q := by
    simp only [Settles, now, composites, List.mem_flatMap, List.mem_cons, List.not_mem_nil,
      or_false]
    grind
  simp only [SteadyFrom, Steady, List.pairwise_append, settles, List.mem_append]
  grind

theorem steadyFrom_cons {seen seen' : List Address} {q : Meeting} {t : List Meeting}
    (now : ∀ c, c ∈ seen' ↔ c ∈ seen ∨ c = q.1 ∨ c = q.2) :
    SteadyFrom seen (q :: t) ↔ Settles seen q ∧ SteadyFrom seen' t := by
  have first : SteadyFrom seen [q] ↔ Settles seen q := by simp [SteadyFrom, Steady]
  rw [← first, ← List.singleton_append]
  exact steadyFrom_append (by simpa [composites] using now)

/-! ## The comparison -/

variable (h) in
/-- What a comparison answers about values with a trail: they are alike if the trail is steady after
    what was entered before, and then all its composites are entered. -/
inductive Answer (seen : List Address) (t : List Meeting) : Likeness → Prop where
  | alike {seen'} : SteadyFrom seen t → h.Entered seen' →
      (∀ c, c ∈ seen' ↔ c ∈ seen ∨ c ∈ composites t) → Answer seen t (.ok (some seen'))
  | differ : ¬ SteadyFrom seen t → Answer seen t (.ok none)

/-- The answer about one pair is taken first. -/
theorem Answer.likeEach_cons {like : List Address → Value → Value → Likeness}
    {seen : List Address} {x y : Value} {rest : Walk (Value × Value)} {t u : List Meeting}
    (first : h.Answer seen t (like seen x y))
    (others : ∀ seen', h.Entered seen' → (∀ c, c ∈ seen' ↔ c ∈ seen ∨ c ∈ composites t) →
      h.Answer seen' u (likeEach like seen' rest)) :
    h.Answer seen (t ++ u) (likeEach like seen (.ok (x, y) :: rest)) := by
  rw [likeEach]
  generalize like seen x y = answer at first
  cases first with
  | differ broken =>
      exact .differ fun whole => broken ((steadyFrom_append fun _ => List.mem_append).mp whole).1
  | alike steady entered now =>
      have later := others _ entered now
      dsimp only
      generalize likeEach like _ rest = answer at later ⊢
      cases later with
      | differ broken => exact .differ fun whole => broken ((steadyFrom_append now).mp whole).2
      | alike steady' entered' now' =>
          refine .alike ((steadyFrom_append now).mpr ⟨steady, steady'⟩) entered' fun c => ?_
          rw [now', now, or_assoc]
          simp [composites]

variable (h) in
/-- What was entered and is found below both sides was entered with all that is below it. -/
def Closed (seen : List Address) (pairs : List (Value × Value)) : Prop :=
  ∀ c ∈ seen, (∃ p ∈ pairs, h.HasComposite p.1 c) → (∃ p ∈ pairs, h.HasComposite p.2 c) →
    ∀ d, h.HasComposite (.ref c) d → d ∈ seen

theorem Closed.later {seen : List Address} {p : Value × Value} {pairs : List (Value × Value)}
    (closed : h.Closed seen (p :: pairs)) : h.Closed seen pairs := by
  rintro c present ⟨p, inside, left⟩ ⟨p', inside', right⟩
  exact closed c present ⟨p, List.mem_cons_of_mem _ inside, left⟩
    ⟨p', List.mem_cons_of_mem _ inside', right⟩

/-- Below a pair that is entered, nothing leads back to it on the same side. -/
theorem Closed.down {seen seen' : List Address} {x y : Value} {q : Meeting}
    {members pairs : List (Value × Value)} (closed : h.Closed seen ((x, y) :: pairs))
    (of : h.Members x y q members)
    (grounded : Acc (fun u v => h.Holds v u) x ∧ Acc (fun u v => h.Holds v u) y)
    (now : ∀ c, c ∈ seen' ↔ c ∈ seen ∨ c = q.1 ∨ c = q.2) : h.Closed seen' members := by
  rintro c present ⟨p, inside, left⟩ ⟨p', inside', right⟩ d below
  have holds : h.Holds x p.1 := of.holds_left.mpr (List.mem_map_of_mem inside)
  have holds' : h.Holds y p'.2 := of.holds_right.mpr (List.mem_map_of_mem inside')
  rcases (now c).mp present with old | rfl | rfl
  · have known := closed c old ⟨_, List.mem_cons_self, left.below (.single holds)⟩
      ⟨_, List.mem_cons_self, right.below (.single holds')⟩ d below
    exact (now d).mpr (.inl known)
  · have back := left.reaches
    rw [← eq_ref_of_address of.address_left] at back
    exact absurd back (not_reaches_back grounded.1 holds)
  · have back := right.reaches
    rw [← eq_ref_of_address of.address_right] at back
    exact absurd back (not_reaches_back grounded.2 holds')

/-- A pair that has been passed was entered with all that is below it. -/
theorem Closed.next {seen seen' : List Address} {p : Value × Value} {pairs : List (Value × Value)}
    {t : List Meeting} (closed : h.Closed seen (p :: pairs)) (trail : h.Trail [p] t)
    (now : ∀ c, c ∈ seen' ↔ c ∈ seen ∨ c ∈ composites t) : h.Closed seen' pairs := by
  intro c present left right d below
  rcases (now c).mp present with old | passed
  · exact (now d).mpr (.inl (closed.later c old left right d below))
  · obtain ⟨p', here, has⟩ := (trail.mem_composites c).mp passed
    have inside : d ∈ composites t := (trail.mem_composites d).mpr
      ⟨p', here, has.imp (fun has => below.below has.reaches) fun has => below.below has.reaches⟩
    exact (now d).mpr (.inr inside)

/-! ## Equal trees -/

variable (h) in
/-- A value is found on a way down from one of the two. -/
def Within (a b v : Value) : Prop := h.Reaches a v ∨ h.Reaches b v

variable (h) in
/-- A key under which something within the two values keeps an entry. -/
def KeyWithin (a b : Value) (k : Key) : Prop :=
  ∃ v es e, h.Within a b v ∧ h.Files v es ∧ e ∈ es ∧ e.1 = k

variable (h) in
/-- The keys within two values are settled, and those of one mapping are told apart. -/
structure SettledWithin (a b : Value) : Prop where
  keys : h.Settled (h.KeyWithin a b)
  apart : ∀ v es, h.Within a b v → h.Files v es → h.KeysApart (es.map (·.1))

variable {a b : Value}

theorem Within.below {v u : Value} (within : h.Within a b v) (reached : h.Reaches v u) :
    h.Within a b u :=
  within.imp (·.trans reached) (·.trans reached)

theorem SettledWithin.entries (settled : h.SettledWithin a b) {x y : Value}
    (left : h.Within a b x) (right : h.Within a b y) (es es' : List (Key × Value))
    (files : h.Files x es) (files' : h.Files y es') :
    h.SettledEntries (h.KeyWithin a b) es es' :=
  { settled.keys with
    left := fun e member => ⟨x, es, e, left, files, member, rfl⟩
    right := fun e member => ⟨y, es', e, right, files', member, rfl⟩
    apart := settled.apart x es left files
    apart' := settled.apart y es' right files' }

/-- What has members is on the heap, where plain objects have no fields. -/
theorem live (bare : h.hasFieldSource "object" = false) {v : Value} {c : Address}
    (address : (h.shape v).address? = some c) : c < h.objects.size := by
  rw [eq_ref_of_address address] at address
  by_contra past
  have blank : h.object c = .blank := by
    simp [object, Array.getElem?_eq_none (Nat.le_of_not_lt past)]
  simp [shape, blank, Object.blank, bare, Shape.address?] at address

theorem mem_enterComposite {seen : List Address} {c d : Address} :
    d ∈ enterComposite seen c ↔ d ∈ seen ∨ d = c := by
  unfold enterComposite
  split
  · rename_i present
    have present : c ∈ seen := by simpa using present
    grind
  · simp

theorem likeWithin_leaf {x y : Value} (types : h.typeOf x = h.typeOf y) (leaf : h.isLeaf x)
    (equal : h.leafEqual x y = .ok true) (budget : Nat) (seen : List Address) :
    h.likeWithin (budget + 1) seen x y = .ok (some seen) := by
  simp [likeWithin, types, isLeaf_iff.mp leaf, equal, Except.map]

theorem Entered.composite {seen : List Address} (entered : h.Entered seen) {c : Address}
    (live : c < h.objects.size) : h.Entered (enterComposite seen c) := by
  unfold enterComposite
  split
  · exact entered
  · rename_i absent
    exact entered.enter (by simpa using absent) live

theorem length_le_of_subset {seen seen' : List Address} (entered : h.Entered seen)
    (inside : seen ⊆ seen') : seen.length ≤ seen'.length :=
  (List.subperm_of_subset entered.once inside).length_le

/-- Two composites at one place that were not met before are entered, and their members are
    compared. -/
theorem Members.answer (bare : h.hasFieldSource "object" = false) (settled : h.SettledWithin a b)
    {x y : Value} {q : Meeting} {members pairs : List (Value × Value)} {inner : List Meeting}
    (of : h.Members x y q members) (types : h.typeOf x = h.typeOf y) (trail : h.Trail members inner)
    (left : h.Within a b x) (right : h.Within a b y) {seen : List Address} {budget : Nat}
    (entered : h.Entered seen) (enough : h.Enough (budget + 1) seen)
    (closed : h.Closed seen ((x, y) :: pairs))
    (inside : ∀ (keep : Value × Value → Bool) seen', (∀ p, keep p = false → h.isLeaf p.1) →
      h.Entered seen' → h.Enough budget seen' → h.Closed seen' members →
      h.Answer seen' inner (likeEach (h.likeWithin budget) seen' ((members.filter keep).map .ok))) :
    h.Answer seen (q :: inner) (h.likeWithin (budget + 1) seen x y) := by
  have whole : h.Trail [(x, y)] (q :: inner) := .root types of trail
  simp only [likeWithin, types, bne_self_eq_false, Bool.false_eq_true, if_false, of.address_left,
    of.address_right, List.contains_eq_mem, ← Bool.decide_or, decide_eq_true_eq]
  by_cases met : q.1 ∈ seen ∨ q.2 ∈ seen
  · rw [if_pos met]
    by_cases one : q.1 = q.2
    · -- One object that was met before was entered with all that is below it.
      have same : x = y := by
        rw [eq_ref_of_address of.address_left, eq_ref_of_address of.address_right, one]
      subst same
      have known : ∀ d, h.HasComposite x d → d ∈ seen := by
        have old : q.1 ∈ seen := by simpa [one] using met
        have own : h.HasComposite x q.1 := ⟨x, .refl, of.address_left⟩
        have below := closed q.1 old ⟨_, List.mem_cons_self, own⟩ ⟨_, List.mem_cons_self, own⟩
        rwa [← eq_ref_of_address of.address_left] at below
      have steady : SteadyFrom seen (q :: inner) := .self <| whole.self (by simp)
        fun p member v es reached => by
          cases List.mem_singleton.mp member
          exact settled.apart v es (left.below reached)
      have answer := Answer.alike steady entered fun c => by
        refine ⟨.inl, fun present => present.elim id fun passed => ?_⟩
        obtain ⟨p, here, has⟩ := (whole.mem_composites c).mp passed
        rw [List.mem_singleton.mp here, or_self] at has
        exact known c has
      simpa [one] using answer
    · have broken : ¬ SteadyFrom seen (q :: inner) := fun steady =>
        one (steady.2 q List.mem_cons_self met)
      simpa [one] using Answer.differ (h := h) broken
  · rw [if_neg met]
    obtain ⟨keep, leaves, compared⟩ := of.likePairs (settled.entries left right) trail.typeOf_eq
      trail.leafEqual
    rw [compared]
    dsimp only
    have now (c : Address) : c ∈ enterComposite (enterComposite seen q.1) q.2 ↔
        c ∈ seen ∨ c = q.1 ∨ c = q.2 := by
      rw [mem_enterComposite, mem_enterComposite, or_assoc]
    have entered' := (entered.composite (live bare of.address_left)).composite
      (live bare of.address_right)
    have more : seen.length + 1 ≤ (enterComposite (enterComposite seen q.1) q.2).length := by
      have fresh : h.Entered (seen ++ [q.1]) :=
        entered.enter (fun old => met (.inl old)) (live bare of.address_left)
      have grown := length_le_of_subset fresh fun c present => (now c).mpr (by
        rcases List.mem_append.mp present with old | own
        · exact .inl old
        · exact .inr (.inl (List.mem_singleton.mp own)))
      simpa using grown
    have answer := inside keep _ leaves entered' (enough.down more)
      (closed.down of (whole.grounded _ List.mem_cons_self) now)
    have settles : Settles seen q := fun again => absurd again met
    generalize likeEach _ _ _ = likeness at answer ⊢
    cases answer with
    | differ broken => exact .differ fun steady => broken ((steadyFrom_cons now).mp steady).2
    | alike steady entered'' now' =>
        refine .alike ((steadyFrom_cons now).mpr ⟨settles, steady⟩) entered'' fun c => ?_
        rw [now', now]
        simp [composites, or_assoc]

/-- A comparison of values with a trail answers as the trail is steady. -/
theorem Trail.answer (bare : h.hasFieldSource "object" = false) (settled : h.SettledWithin a b)
    {pairs : List (Value × Value)} {t : List Meeting} (trail : h.Trail pairs t)
    (within : ∀ p ∈ pairs, h.Within a b p.1 ∧ h.Within a b p.2) {keep : Value × Value → Bool}
    (leaves : ∀ p, keep p = false → h.isLeaf p.1) {seen : List Address} {budget : Nat}
    (entered : h.Entered seen) (enough : h.Enough budget seen) (closed : h.Closed seen pairs) :
    h.Answer seen t (likeEach (h.likeWithin budget) seen ((pairs.filter keep).map .ok)) := by
  induction trail generalizing keep seen budget with
  | done => exact .alike (.self (by simp)) entered (by simp [composites])
  | @leaf x y pairs t types leaf _ equal _ ih =>
      have others := ih (fun p later => within p (List.mem_cons_of_mem _ later)) leaves entered
        enough closed.later
      cases kept : keep (x, y) with
      | false => rwa [List.filter_cons_of_neg (by simp [kept])]
      | true =>
          obtain ⟨budget, rfl⟩ := enough.pos entered
          rw [List.filter_cons_of_pos kept, List.map_cons, likeEach,
            likeWithin_leaf types leaf equal]
          exact others
  | @composite x y q members inner pairs t types of members' trail ihMembers ih =>
      have kept : keep (x, y) = true := by
        by_contra passed
        exact not_hasComposite_leaf (leaves (x, y) (by simpa using passed))
          ⟨x, .refl, of.address_left⟩
      obtain ⟨left, right⟩ := within _ List.mem_cons_self
      obtain ⟨budget, rfl⟩ := enough.pos entered
      rw [List.filter_cons_of_pos kept, List.map_cons]
      have below : ∀ p ∈ members, h.Within a b p.1 ∧ h.Within a b p.2 := fun p inside =>
        ⟨left.below (.single (of.holds_left.mpr (List.mem_map_of_mem inside))),
          right.below (.single (of.holds_right.mpr (List.mem_map_of_mem inside)))⟩
      refine Answer.likeEach_cons ?_ fun seen' entered' now => ?_
      · exact of.answer bare settled types members' left right entered enough closed
          fun keep' seen' leaves' => ihMembers below leaves'
      · have whole : h.Trail [(x, y)] (q :: inner) := .root types of members'
        have kept : seen ⊆ seen' := fun c old => (now c).mpr (.inl old)
        exact ih (fun p later => within p (List.mem_cons_of_mem _ later)) leaves entered'
          (enough.later (length_le_of_subset entered kept)) (closed.next whole now)

/-- Two values that unfold to one finite tree are alike exactly if, where the tree is passed from
    the top, a composite that was met before is met again only with itself. -/
theorem like_equal_trees {t : List Meeting} (bare : h.hasFieldSource "object" = false)
    (settled : h.SettledWithin a b) (trail : h.Trail [(a, b)] t) :
    h.like a b = .ok (decide (Steady t)) := by
  have sides : ∀ p ∈ [(a, b)], h.Within a b p.1 ∧ h.Within a b p.2 := fun p member =>
    List.mem_singleton.mp member ▸ ⟨.inl .refl, .inr .refl⟩
  have all : ∀ p : Value × Value, (fun _ : Value × Value => true) p = false → h.isLeaf p.1 := by
    simp
  have answer := trail.answer bare settled sides all .none .start fun c present => nomatch present
  rw [like, likeFrom]
  simp only [List.filter_true, List.map_cons, List.map_nil, likeEach] at answer
  generalize h.likeWithin _ [] a b = likeness at answer ⊢
  rcases likeness with fault | (_ | seen)
  · cases answer
  · cases answer with
    | differ broken => simp [Except.map, mt steadyFrom_nil.mpr broken]
  · cases answer with
    | alike steady => simp [Except.map, steadyFrom_nil.mp steady]

/-! ## Finite trees are unfoldings -/

/-- Each of the pairs has a trail of its own. -/
theorem Trail.each {pairs : List (Value × Value)} {t : List Meeting} (trail : h.Trail pairs t) :
    ∀ p ∈ pairs, ∃ own, h.Trail [p] own := by
  induction trail with
  | done => simp
  | leaf types leaf leaf' equal _ ih =>
      exact List.forall_mem_cons.mpr ⟨⟨[], .leaf types leaf leaf' equal .done⟩, ih⟩
  | composite types of members _ _ ih =>
      exact List.forall_mem_cons.mpr ⟨⟨_, .root types of members⟩, ih⟩

theorem Matching.sameEntries {es es' : List (Key × Value)}
    {m : List ((Key × Value) × (Key × Value))} (matching : h.Matching es es' m)
    (symm : ∀ e ∈ es, ∀ e' ∈ es', h.sameKey e'.1.value e.1.value → h.sameKey e.1.value e'.1.value)
    {R : Value → Value → Prop} (related : ∀ p ∈ matchedValues m, R p.1 p.2) :
    h.SameEntries R es es' := by
  have both : ∀ q ∈ m, h.sameKey q.1.1.value q.2.1.value ∧ R q.1.2 q.2.2 := fun q member =>
    ⟨symm _ (matching.mem_left member) _ (matching.mem_right member) (matching.same q member),
      related _ (List.mem_map_of_mem member)⟩
  constructor
  · intro e inside
    obtain ⟨q, member, rfl⟩ := List.mem_map.mp (matching.left ▸ inside)
    exact ⟨q.2, matching.mem_right member, both q member⟩
  · intro e' inside
    obtain ⟨q, member, rfl⟩ := List.mem_map.mp (matching.right.mem_iff.mpr inside)
    exact ⟨q.1, matching.mem_left member, both q member⟩

/-- Values that unfold to one finite tree have the same unfolding. -/
theorem Trail.sameUnfolding {t : List Meeting} (settled : h.SettledWithin a b)
    (trail : h.Trail [(a, b)] t) : h.SameUnfolding a b := by
  let R (x y : Value) : Prop := h.Within a b x ∧ h.Within a b y ∧ ∃ t, h.Trail [(x, y)] t
  refine ⟨R, fun x y related => ?_, .inl .refl, .inr .refl, t, trail⟩
  obtain ⟨left, right, t, trail⟩ := related
  have symm (es es' : List (Key × Value)) (files : h.Files x es) (files' : h.Files y es') :
      ∀ e ∈ es, ∀ e' ∈ es', h.sameKey e'.1.value e.1.value → h.sameKey e.1.value e'.1.value :=
    have keys := settled.entries left right es es' files files'
    fun e inside e' inside' => keys.symm _ _ (keys.right e' inside') (keys.left e inside)
  cases trail with
  | leaf types leaf _ equal => exact .leaf types leaf equal
  | @composite _ _ _ members _ _ _ types of inner =>
      have below : ∀ p ∈ members, R p.1 p.2 := fun p member =>
        ⟨left.below (.single (of.holds_left.mpr (List.mem_map_of_mem member))),
          right.below (.single (of.holds_right.mpr (List.mem_map_of_mem member))),
          inner.each p member⟩
      cases of with
      | sequence shape shape' size =>
          exact .sequence types shape shape' (List.forall₂_iff_zip.mpr ⟨size, fun member =>
            below _ member⟩)
      | mapping shape shape' matching =>
          exact .mapping types shape shape' (matching.sameEntries
            (symm _ _ (.mapping shape) (.mapping shape')) below)
      | structured shape shape' own own' matching =>
          exact .structured types shape shape' own own' (matching.sameEntries
            (symm _ _ (.fields shape own) (.fields shape' own')) below)

/-! ## Values that share a member -/

/-- Keys that are listed once are told apart if only equal ones are the same. -/
theorem KeysApart.of_nodup {keys : List Key} (once : keys.Nodup)
    (told : ∀ k ∈ keys, ∀ k' ∈ keys, h.sameKey k.value k'.value → k = k') : h.KeysApart keys := by
  intro i j k k' at_i at_j same
  cases told k (List.mem_of_getElem? at_i) k' (List.mem_of_getElem? at_j) same
  have below : i < keys.length := (List.getElem?_eq_some_iff.mp at_i).1
  exact (List.getElem?_inj below once).mp (at_i.trans at_j.symm)

/-- Keys within two values are settled if they are listed, and each of them is only the same as
    itself. -/
theorem SettledWithin.of_listed (keys : List Key) (current : ∀ k ∈ keys, h.Current k)
    (compared : ∀ k ∈ keys, ∀ k' ∈ keys, sameOr h.equal k.value k'.value = .ok (decide (k = k')))
    (listed : ∀ v es, h.Within a b v → h.Files v es →
      (es.map (·.1)).Nodup ∧ ∀ k ∈ es.map (·.1), k ∈ keys) : h.SettledWithin a b := by
  have same (k k' : Key) (own : k ∈ keys) (own' : k' ∈ keys) :
      h.sameKey k.value k'.value = true ↔ k = k' := by
    simp [sameKey, compared k own k' own']
  have settled : h.Settled (· ∈ keys) :=
    { current
      comparable := fun k k' own own' => ⟨⟨_, compared k own k' own'⟩,
        fun one => congrArg Key.digest ((same k k' own own').mp one)⟩
      symm := fun k k' own own' one => (same k' k own' own).mpr ((same k k' own own').mp one).symm
      trans := fun k k' k'' own own' own'' one one' => (same k k'' own own'').mpr
        (((same k k' own own').mp one).trans ((same k' k'' own' own'').mp one')) }
  constructor
  · apply settled.mono
    rintro k ⟨v, es, e, within, files, member, own⟩
    exact (listed v es within files).2 k (own ▸ List.mem_map_of_mem member)
  · intro v es within files
    obtain ⟨once, inside⟩ := listed v es within files
    exact .of_nodup once fun k own k' own' one => (same k k' (inside k own) (inside k' own')).mp one

/-- A list, and values that have it twice: a list, and two dictionaries with their keys in a
    different order.  Another list has two lists of its own. -/
def repeats : Heap where
  classes := Standard.classes []
  objects :=
    let list (items : List Value) : Object := { cls := "list", body := .sequence .list items }
    let dict (entries : List (Key × Value)) : Object :=
      { cls := "dict", body := .mapping .dict entries }
    #[list [.int 1], list [.ref 0, .ref 0], list [.int 1], list [.int 1], list [.ref 2, .ref 3],
      dict [(.text "k", .ref 0), (.text "l", .ref 0)],
      dict [(.text "l", .ref 0), (.text "k", .ref 0)]]

/-- The keys of the dictionaries. -/
def repeatsKeys : List Key := [.text "k", .text "l"]

theorem repeats_files {v : Value} {es : List (Key × Value)} (files : repeats.Files v es) :
    (es.map (·.1)).Perm repeatsKeys := by
  have shapes (c : Address) : (∃ xs, repeats.shape (.ref c) = .sequence c xs) ∨
      repeats.shape (.ref c) = .leaf ∨ ∃ kind es, repeats.shape (.ref c) = .mapping c kind es ∧
        (es.map (·.1)).Perm repeatsKeys := by
    rcases c with _ | _ | _ | _ | _ | _ | _ | c
    · exact .inl ⟨_, rfl⟩
    · exact .inl ⟨_, rfl⟩
    · exact .inl ⟨_, rfl⟩
    · exact .inl ⟨_, rfl⟩
    · exact .inl ⟨_, rfl⟩
    · exact .inr (.inr ⟨_, _, rfl, .refl _⟩)
    · exact .inr (.inr ⟨_, _, rfl, .swap _ _ _⟩)
    · exact .inr (.inl rfl)
  cases v with
  | ref c =>
      rcases shapes c with ⟨xs, list⟩ | leaf | ⟨kind, entries, dict, keys⟩
      · cases files with
        | mapping shape | fields shape => cases list.symm.trans shape
      · cases files with
        | mapping shape | fields shape => cases leaf.symm.trans shape
      · rwa [files.unique (.mapping dict)]
  | _ =>
      cases files with
      | mapping shape | fields shape => cases shape

theorem repeats_settled (a b : Value) : repeats.SettledWithin a b := by
  apply SettledWithin.of_listed repeatsKeys (by decide +kernel) (by decide +kernel)
  intro v es _ files
  have perm := repeats_files files
  exact ⟨perm.nodup_iff.mpr (by decide), fun k => perm.mem_iff.mp⟩

theorem repeats_trail (x y : Address) (of : repeats.shape (.ref x) = .sequence x [.int 1])
    (of' : repeats.shape (.ref y) = .sequence y [.int 1])
    (types : repeats.typeOf (.ref x) = repeats.typeOf (.ref y)) {pairs : List (Value × Value)}
    {t : List Meeting} (rest : repeats.Trail pairs t) :
    repeats.Trail ((.ref x, .ref y) :: pairs) ((x, y) :: t) :=
  .composite types (.sequence of of' rfl) (.leaf rfl rfl rfl rfl .done) rest

/-- What both sides share may be met again. -/
theorem like_equal_trees_repeats : repeats.hasFieldSource "object" = false ∧
    repeats.SettledWithin (.ref 5) (.ref 6) ∧
    repeats.Trail [(.ref 5, .ref 6)] [(5, 6), (0, 0), (0, 0)] ∧
    repeats.like (.ref 5) (.ref 6) = .ok true := by
  let entry (name : String) : Key × Value := (.text name, .ref 0)
  have matching : repeats.Matching [entry "k", entry "l"] [entry "l", entry "k"]
      [(entry "k", entry "k"), (entry "l", entry "l")] :=
    ⟨rfl, .swap _ _ _, by simp [sameKey_self]⟩
  have values : repeats.Trail [(.ref 0, .ref 0), (.ref 0, .ref 0)] [(0, 0), (0, 0)] :=
    repeats_trail 0 0 rfl rfl rfl (repeats_trail 0 0 rfl rfl rfl .done)
  have trail : repeats.Trail [(.ref 5, .ref 6)] [(5, 6), (0, 0), (0, 0)] :=
    .root rfl (.mapping rfl rfl matching) values
  have settled := repeats_settled (.ref 5) (.ref 6)
  exact ⟨rfl, settled, trail, like_equal_trees rfl settled trail⟩

/-- It is not enough that two values unfold to one finite tree.  A list that has one list twice is
    not like a list that has two lists equal to it. -/
theorem like_misses_equal_tree : ¬ ∀ (h : Heap) (a b : Value) (t : List Meeting),
    h.hasFieldSource "object" = false → h.SettledWithin a b → h.Trail [(a, b)] t →
    h.like a b = .ok true := by
  intro claim
  have items : repeats.Trail [(.ref 0, .ref 2), (.ref 0, .ref 3)] [(0, 2), (0, 3)] :=
    repeats_trail 0 2 rfl rfl rfl (repeats_trail 0 3 rfl rfl rfl .done)
  have trail : repeats.Trail [(.ref 1, .ref 4)] [(1, 4), (0, 2), (0, 3)] :=
    .root rfl (.sequence rfl rfl rfl) items
  have alike := claim repeats (.ref 1) (.ref 4) _ rfl (repeats_settled _ _) trail
  have differ : repeats.like (.ref 1) (.ref 4) = .ok false := rfl
  cases alike.symm.trans differ

end Assay.Heap
