import Assay.Proofs.Likeness.Answered
import Mathlib.Data.List.Zip

/-! # Values that change sides

A comparison takes the entries of the left side in order and looks them up on the right, and it keeps
all composites that it has entered in one list.  If the sides change, composites are entered in
another order, so that others are met again.

What was met before is alike only with itself.  So the order can matter only where a composite stands
opposite itself in one place, and opposite another composite in another place: it is alike in the
first place, and entering it there spoils the second, or the other way round.  Where this does not
happen, two values that are alike unfold to one finite tree, and the same composites are met again
whatever way the tree is passed.
-/

namespace Assay.Heap

variable (h : Heap)

/-- What two values have at one place, be it different objects or one. -/
inductive Across (a b : Value) : Value → Value → Prop where
  | root : Across a b a b
  | member {x y q members p} : Across a b x y → h.typeOf x = h.typeOf y →
      h.Members x y q members → p ∈ members → Across a b p.1 p.2

/-- A composite that stands opposite itself does not stand opposite another one. -/
def Unmixed (a b : Value) : Prop :=
  ∀ c d, ¬ h.isLeaf (.ref c) → ¬ h.isLeaf (.ref d) → h.Across a b (.ref c) (.ref c) →
    h.Across a b (.ref c) (.ref d) ∨ h.Across a b (.ref d) (.ref c) → c = d

variable {h} {a b x y : Value} {pairs : List (Value × Value)} {t : List Meeting}

/-! ## The other way round -/

/-- What a list is mapped to can be put in any order by putting the list in an order. -/
theorem exists_perm_of_map {α β : Type} {f : α → β} {xs : List α} {ys : List β}
    (order : (xs.map f).Perm ys) : ∃ xs' : List α, xs'.map f = ys ∧ xs'.Perm xs := by
  have mapped : List.Forall₂ (fun y x => y = f x) (xs.map f) xs := by
    rw [List.forall₂_map_left_iff]
    exact List.forall₂_same.mpr fun _ _ => rfl
  obtain ⟨xs', related, order'⟩ := List.perm_comp_forall₂ order.symm mapped
  refine ⟨xs', ?_, order'⟩
  rw [← List.forall₂_eq_eq_eq, List.forall₂_map_left_iff]
  exact related.flip.imp fun _ _ => Eq.symm

theorem Within.swap {v : Value} (within : h.Within b a v) : h.Within a b v := Or.symm within

theorem SettledWithin.swap (settled : h.SettledWithin a b) : h.SettledWithin b a where
  keys := settled.keys.mono fun _ ⟨v, es, e, within, files, member, own⟩ =>
    ⟨v, es, e, within.swap, files, member, own⟩
  apart v es within := settled.apart v es within.swap

theorem Answerable.swap (ready : h.Answerable a b) : h.Answerable b a where
  settled := ready.settled.swap
  kinds x y left right types := (ready.kinds y x right left types.symm).symm
  told v c within := ready.told v c within.swap
  leaves x y left right types leaf := by
    have leaf' : h.isLeaf y := by rwa [isLeaf, ready.kinds y x right left types.symm]
    obtain ⟨r, one, other⟩ := ready.leaves y x right left types.symm leaf'
    exact ⟨r, other, one⟩
  present v c kind es within := ready.present v c kind es within.swap

theorem Matching.swap {K : Key → Prop} {es es' : List (Key × Value)}
    {m : List ((Key × Value) × (Key × Value))} (keys : h.SettledEntries K es es')
    (matching : h.Matching es es' m) :
    ∃ m', h.Matching es' es m' ∧ (matchedValues m').Perm ((matchedValues m).map Prod.swap) := by
  have right : ((m.map Prod.swap).map (·.1)).Perm es' := by
    rw [List.map_map]
    exact matching.right
  obtain ⟨m', ordered, order⟩ := exists_perm_of_map right
  refine ⟨m', ⟨ordered, ?_, fun q inside => ?_⟩, ?_⟩
  · have left := order.map (·.2)
    rw [List.map_map] at left
    exact left.trans (.of_eq matching.left)
  · obtain ⟨q, member, rfl⟩ := List.mem_map.mp (order.mem_iff.mp inside)
    exact keys.symm _ _ (keys.right _ (matching.mem_right member))
      (keys.left _ (matching.mem_left member)) (matching.same q member)
  · have values := order.map fun q => (q.1.2, q.2.2)
    rw [List.map_map] at values
    refine values.trans (.of_eq ?_)
    rw [matchedValues, List.map_map]
    rfl

theorem Members.swap (settled : h.SettledWithin a b) (left : h.Within a b x)
    (right : h.Within a b y) {q : Meeting} {members : List (Value × Value)}
    (of : h.Members x y q members) :
    ∃ members', h.Members y x q.swap members' ∧ members'.Perm (members.map Prod.swap) := by
  have keys := settled.entries left right
  cases of with
  | sequence shape shape' size =>
      exact ⟨_, .sequence shape' shape size.symm, .of_eq (List.zip_swap _ _).symm⟩
  | mapping shape shape' matching =>
      obtain ⟨m', matching', order⟩ := matching.swap (keys _ _ (.mapping shape) (.mapping shape'))
      exact ⟨_, .mapping shape' shape matching', order⟩
  | structured shape shape' own own' matching =>
      obtain ⟨m', matching', order⟩ :=
        matching.swap (keys _ _ (.fields shape own) (.fields shape' own'))
      exact ⟨_, .structured shape' shape own' own matching', order⟩

/-! ## What stands opposite each other -/

namespace Across

theorem reaches (across : h.Across a b x y) : h.Reaches a x ∧ h.Reaches b y := by
  induction across with
  | root => exact ⟨.refl, .refl⟩
  | member _ _ of inside ih =>
      exact ⟨ih.1.tail (of.holds_left.mpr (List.mem_map_of_mem inside)),
        ih.2.tail (of.holds_right.mpr (List.mem_map_of_mem inside))⟩

theorem swap (settled : h.SettledWithin a b) (across : h.Across a b x y) : h.Across b a y x := by
  induction across with
  | root => exact .root
  | @member _ _ _ _ p across types of inside ih =>
      obtain ⟨left, right⟩ := across.reaches
      obtain ⟨members', of', order⟩ := of.swap settled (.inl left) (.inr right)
      exact .member ih types.symm of' (order.mem_iff.mpr (List.mem_map_of_mem (f := Prod.swap) inside))

/-- What stands opposite each other is among pairs of which all pairs of branches are among them. -/
theorem among (start : (a, b) ∈ pairs)
    (closed : ∀ p ∈ pairs, ∀ u ∈ h.branches p.1, ∀ v ∈ h.branches p.2, (u, v) ∈ pairs)
    (across : h.Across a b x y) : (x, y) ∈ pairs := by
  induction across with
  | root => exact start
  | member _ _ of inside ih =>
      exact closed _ ih _ (holds_iff_branches.mp (of.holds_left.mpr (List.mem_map_of_mem inside))) _
        (holds_iff_branches.mp (of.holds_right.mpr (List.mem_map_of_mem inside)))

end Across

theorem Unmixed.swap (settled : h.SettledWithin a b) (unmixed : h.Unmixed a b) :
    h.Unmixed b a := by
  intro c d compound compound' self other
  exact unmixed c d compound compound' (self.swap settled.swap)
    (other.symm.imp (·.swap settled.swap) (·.swap settled.swap))

theorem not_isLeaf_of_address {c : Address} (address : (h.shape x).address? = some c) :
    ¬ h.isLeaf (.ref c) := by
  rw [← eq_ref_of_address address, isLeaf_iff, address]
  exact Option.some_ne_none c

/-- A trail passes composites that stand opposite each other. -/
theorem Trail.across (trail : h.Trail pairs t) (places : ∀ p ∈ pairs, h.Across a b p.1 p.2) :
    ∀ q ∈ t, h.Across a b (.ref q.1) (.ref q.2) ∧ ¬ h.isLeaf (.ref q.1) ∧
      ¬ h.isLeaf (.ref q.2) := by
  induction trail with
  | done => simp
  | leaf _ _ _ _ _ ih => exact ih fun p later => places p (List.mem_cons_of_mem _ later)
  | composite types of _ _ ihMembers ih =>
      obtain ⟨here, others⟩ := List.forall_mem_cons.mp places
      have below := ihMembers fun p inside => here.member types of inside
      rw [eq_ref_of_address of.address_left, eq_ref_of_address of.address_right] at here
      refine List.forall_mem_append.mpr ⟨List.forall_mem_cons.mpr ⟨⟨here, ?_⟩, below⟩, ih others⟩
      exact ⟨not_isLeaf_of_address of.address_left, not_isLeaf_of_address of.address_right⟩

/-! ## Trails the other way round -/

namespace Trail

variable {pairs' : List (Value × Value)} {u : List Meeting}

theorem append (trail : h.Trail pairs t) (trail' : h.Trail pairs' u) :
    h.Trail (pairs ++ pairs') (t ++ u) := by
  induction trail with
  | done => exact trail'
  | leaf types leaf leaf' equal _ ih => exact .leaf types leaf leaf' equal ih
  | composite types of inner _ _ ih =>
      rw [List.append_assoc]
      exact .composite types of inner ih

theorem split {p : Value × Value} (trail : h.Trail (p :: pairs) t) :
    ∃ first rest, h.Trail [p] first ∧ h.Trail pairs rest ∧ t = first ++ rest := by
  cases trail with
  | leaf types leaf leaf' equal later => exact ⟨[], t, .leaf types leaf leaf' equal .done, later, rfl⟩
  | composite types of inner later => exact ⟨_, _, .root types of inner, later, rfl⟩

/-- The order of the pairs is the order of the meetings. -/
theorem perm (order : pairs.Perm pairs') (trail : h.Trail pairs t) :
    ∃ u, h.Trail pairs' u ∧ t.Perm u := by
  induction order generalizing t with
  | nil => exact ⟨t, trail, .refl _⟩
  | cons p _ ih =>
      obtain ⟨first, rest, here, later, rfl⟩ := trail.split
      obtain ⟨rest', later', order⟩ := ih later
      exact ⟨first ++ rest', here.append later', order.append_left first⟩
  | swap p p' pairs =>
      obtain ⟨first, _, here, later, rfl⟩ := trail.split
      obtain ⟨second, rest, here', last, rfl⟩ := later.split
      refine ⟨second ++ (first ++ rest), here'.append (here.append last), ?_⟩
      rw [← List.append_assoc, ← List.append_assoc]
      exact List.perm_append_comm.append_right rest
  | trans _ _ ih ih' =>
      obtain ⟨_, trail', order⟩ := ih trail
      obtain ⟨u, trail'', order'⟩ := ih' trail'
      exact ⟨u, trail'', order.trans order'⟩

/-- Values that change sides unfold to one tree as well.  Its meetings are turned round, and they come
    in the order of what is on the left then. -/
theorem swap (ready : h.Answerable a b) (trail : h.Trail pairs t)
    (sides : ∀ p ∈ pairs, h.Reaches a p.1 ∧ h.Reaches b p.2) :
    ∃ u, h.Trail (pairs.map Prod.swap) u ∧ u.Perm (t.map Prod.swap) := by
  induction trail with
  | done => exact ⟨[], .done, .refl _⟩
  | leaf types leaf leaf' equal _ ih =>
      obtain ⟨⟨left, right⟩, others⟩ := List.forall_mem_cons.mp sides
      obtain ⟨u, trail, order⟩ := ih others
      obtain ⟨r, one, other⟩ := ready.leaves _ _ left right types leaf
      cases one.symm.trans equal
      exact ⟨u, .leaf types.symm leaf' leaf other trail, order⟩
  | @composite x y q members inner pairs t types of _ _ ihMembers ih =>
      obtain ⟨⟨left, right⟩, others⟩ := List.forall_mem_cons.mp sides
      obtain ⟨members', of', order⟩ := of.swap ready.settled (.inl left) (.inr right)
      obtain ⟨turned, below, order'⟩ := ihMembers fun p inside =>
        ⟨left.tail (of.holds_left.mpr (List.mem_map_of_mem inside)),
          right.tail (of.holds_right.mpr (List.mem_map_of_mem inside))⟩
      obtain ⟨inner', below', order''⟩ := below.perm order.symm
      obtain ⟨u, trail, rest⟩ := ih others
      refine ⟨q.swap :: inner' ++ u, .composite types.symm of' below' trail, ?_⟩
      rw [List.map_append, List.map_cons]
      exact ((order''.symm.trans order').cons _).append rest

end Trail

/-- Two meetings have no composite in common, unless both are of one object. -/
def Compatible (p q : Meeting) : Prop :=
  p.1 = q.1 ∨ p.1 = q.2 ∨ p.2 = q.1 ∨ p.2 = q.2 → p.1 = p.2 ∧ q.1 = q.2

/-- Where nothing is mixed, the order of the meetings does not matter. -/
theorem Unmixed.steady_iff (unmixed : h.Unmixed a b)
    (places : ∀ q ∈ t, h.Across a b (.ref q.1) (.ref q.2) ∧ ¬ h.isLeaf (.ref q.1) ∧
      ¬ h.isLeaf (.ref q.2)) : Steady t ↔ t.Pairwise Compatible := by
  refine List.Pairwise.iff_of_mem fun {p q} inside inside' => ?_
  obtain ⟨here, compound, compound'⟩ := places p inside
  obtain ⟨there, own, own'⟩ := places q inside'
  have alone (same : q.1 = q.2) : p.1 = q.1 ∨ p.2 = q.1 → p.1 = p.2 := by
    rw [← same] at there
    rintro (one | one)
    · exact one.trans (unmixed _ _ own compound' there (.inl (one ▸ here)))
    · exact (unmixed _ _ own compound there (.inr (one ▸ here))).symm.trans one.symm
  simp only [Settles, Compatible, List.mem_cons, List.not_mem_nil, or_false]
  grind

theorem steady_swap (settled : h.SettledWithin a b) (unmixed : h.Unmixed a b) {u : List Meeting}
    (trail : h.Trail [(a, b)] t) (turned : h.Trail [(b, a)] u) (order : u.Perm (t.map Prod.swap))
    (steady : Steady t) : Steady u := by
  have places := trail.across (a := a) (b := b) (by simpa using .root)
  have places' := turned.across (a := b) (b := a) (by simpa using .root)
  have symm : ∀ {p q : Meeting}, Compatible p q → Compatible q p := by
    simp only [Compatible]
    grind
  rw [(unmixed.swap settled).steady_iff places', order.pairwise_iff symm, List.pairwise_map]
  refine ((unmixed.steady_iff places).mp steady).imp ?_
  simp only [Compatible, Prod.fst_swap, Prod.snd_swap]
  grind

/-! ## Values that are alike have a trail -/

variable (h) in
/-- Values of one class that are equal leaves, or composites that were entered together. -/
def Traversed (entered : List Meeting) (p : Value × Value) : Prop :=
  h.typeOf p.1 = h.typeOf p.2 ∧
    (h.isLeaf p.1 ∧ h.leafEqual p.1 p.2 = .ok true ∨ ∃ q ∈ entered, p = (.ref q.1, .ref q.2))

variable (h) in
/-- Two composites whose members have been passed. -/
def Opened (entered : List Meeting) (q : Meeting) : Prop :=
  ∃ members, h.Members (.ref q.1) (.ref q.2) q members ∧ ∀ p ∈ members, h.Traversed entered p

variable (h) in
/-- Pairs of composites make up what counts as entered. -/
structure History (a b : Value) (seen : List Address) (entered : List Meeting) : Prop where
  met : ∀ c ∈ seen, ∃ q ∈ entered, c = q.1 ∨ c = q.2
  across : ∀ q ∈ entered, h.Across a b (.ref q.1) (.ref q.2) ∧ ¬ h.isLeaf (.ref q.1) ∧
    ¬ h.isLeaf (.ref q.2)

variable (h) in
/-- A comparison has gone on from what was entered before.  What it has entered has been opened. -/
structure Onward (a b : Value) (entered : List Meeting) (last : List Address)
    (entered' : List Meeting) : Prop where
  history : h.History a b last entered'
  kept : entered ⊆ entered'
  opened : ∀ q ∈ entered', q ∈ entered ∨ h.Opened entered' q

section Course

variable {entered entered' : List Meeting} {seen last : List Address} {p : Value × Value}

theorem Traversed.mono (passed : h.Traversed entered p) (more : entered ⊆ entered') :
    h.Traversed entered' p :=
  passed.imp_right fun way => way.imp_right fun met => met.imp fun _ => And.imp_left (more ·)

theorem Opened.mono {q : Meeting} (opened : h.Opened entered q) (more : entered ⊆ entered') :
    h.Opened entered' q := by
  obtain ⟨members, of, passed⟩ := opened
  exact ⟨members, of, fun p inside => (passed p inside).mono more⟩

theorem Onward.refl (history : h.History a b seen entered) : h.Onward a b entered seen entered :=
  ⟨history, List.Subset.refl _, fun _ => .inl⟩

theorem Onward.trans {seen' : List Address} {entered'' : List Meeting}
    (first : h.Onward a b entered seen entered') (later : h.Onward a b entered' seen' entered'') :
    h.Onward a b entered seen' entered'' where
  history := later.history
  kept := List.Subset.trans first.kept later.kept
  opened q inside := by
    rcases later.opened q inside with before | opened
    · exact (first.opened q before).imp_right (·.mono later.kept)
    · exact .inr opened

/-- Pairs that are compared one after the other have all been passed. -/
theorem onward_each {like : List Address → Value → Value → Likeness} {pairs : List (Value × Value)}
    (each : ∀ p ∈ pairs, ∀ seen last entered, h.History a b seen entered →
      like seen p.1 p.2 = .ok (some last) →
        ∃ entered', h.Onward a b entered last entered' ∧ h.Traversed entered' p)
    (history : h.History a b seen entered)
    (alike : likeEach like seen (pairs.map .ok) = .ok (some last)) :
    ∃ entered', h.Onward a b entered last entered' ∧ ∀ p ∈ pairs, h.Traversed entered' p := by
  induction pairs generalizing seen entered with
  | nil =>
      cases alike
      exact ⟨entered, .refl history, by simp⟩
  | cons p rest ih =>
      simp only [List.map_cons, likeEach] at alike
      split at alike
      · rename_i middle here
        obtain ⟨entered₁, onward, passed⟩ := each p List.mem_cons_self _ _ _ history here
        obtain ⟨entered₂, onward', others⟩ :=
          ih (fun p later => each p (List.mem_cons_of_mem _ later)) onward.history alike
        exact ⟨entered₂, onward.trans onward',
          List.forall_mem_cons.mpr ⟨passed.mono onward'.kept, others⟩⟩
      · rename_i differs
        exact absurd alike (differs _)

theorem History.none : h.History a b [] [] := ⟨by simp, by simp⟩

/-- An object that stands opposite itself was entered opposite itself, if it was met before. -/
theorem History.again (history : h.History a b seen entered) (unmixed : h.Unmixed a b)
    {c : Address} (across : h.Across a b (.ref c) (.ref c)) (compound : ¬ h.isLeaf (.ref c))
    (met : c ∈ seen) : (c, c) ∈ entered := by
  obtain ⟨⟨d, d'⟩, inside, one⟩ := history.met c met
  obtain ⟨there, own, own'⟩ := history.across _ inside
  rcases one with rfl | rfl
  · obtain rfl := unmixed c d' compound own' across (.inl there)
    exact inside
  · obtain rfl := unmixed c d compound own across (.inr there)
    exact inside

theorem History.enter (history : h.History a b seen entered) {q : Meeting}
    (across : h.Across a b (.ref q.1) (.ref q.2)) (compound : ¬ h.isLeaf (.ref q.1))
    (compound' : ¬ h.isLeaf (.ref q.2)) :
    h.History a b (enterComposite (enterComposite seen q.1) q.2) (q :: entered) where
  met c present := by
    rcases mem_entered.mp present with old | own
    · obtain ⟨p, inside, one⟩ := history.met c old
      exact ⟨p, List.mem_cons_of_mem _ inside, one⟩
    · exact ⟨q, List.mem_cons_self, own⟩
  across := List.forall_mem_cons.mpr ⟨⟨across, compound, compound'⟩, history.across⟩

end Course

variable {seen last : List Address} {entered : List Meeting}

/-- A comparison that finds members alike goes on with the members in pairs, but for leaves that are
    equal. -/
theorem exists_members_of_alike (ready : h.Answerable a b) (across : h.Across a b x y) {c d : Address}
    (address : (h.shape x).address? = some c) (address' : (h.shape y).address? = some d)
    (alike : h.FoundAlike x y) {pairs : Walk (Value × Value)}
    (compared : h.likePairs (h.shape x) (h.shape y) = .ok (some pairs))
    (found : ∀ p ∈ pairs, ∃ u v, p = .ok (u, v) ∧ h.FoundAlike u v) :
    ∃ (members : List (Value × Value)) (keep : Value × Value → Bool),
      h.Members x y (c, d) members ∧ pairs = (members.filter keep).map .ok ∧
        ∀ p ∈ members, h.typeOf p.1 = h.typeOf p.2 ∧
          (keep p = false → h.isLeaf p.1 ∧ h.leafEqual p.1 p.2 = .ok true) := by
  obtain ⟨left, right⟩ := across.reaches
  have related : h.Related a b x y := ⟨left, right, alike⟩
  have same := related.sameMembers ready.settled.keysEquivalent
    (fun x es reached => ready.settled.apart x es (.inl reached))
    (fun x c kind es reached => ready.present x c kind es (.inl reached)) compared found
  obtain ⟨⟨c', d'⟩, members, of, inside⟩ := same.members ready.settled (.inl left) (.inr right)
  obtain rfl : c' = c := Option.some.inj (of.address_left.symm.trans address)
  obtain rfl : d' = d := Option.some.inj (of.address_right.symm.trans address')
  have types (p : Value × Value) (member : p ∈ members) : h.typeOf p.1 = h.typeOf p.2 :=
    (inside p member).2.2.typeOf_eq
  have leaves (p : Value × Value) (member : p ∈ members) (leaf : h.isLeaf p.1) :
      h.leafEqual p.1 p.2 = .ok true := (inside p member).2.2.leafEqual leaf
  obtain ⟨keep, passed, paired⟩ :=
    of.likePairs (ready.settled.entries (.inl left) (.inr right)) types leaves
  obtain rfl := Option.some.inj (Except.ok.inj (paired.symm.trans compared))
  exact ⟨members, keep, of, rfl, fun p member =>
    ⟨types p member, fun skipped => ⟨passed p skipped, leaves p member (passed p skipped)⟩⟩⟩

/-- Composites that are entered are opened, if the comparison goes on with members that are alike. -/
theorem onward_members (ready : h.Answerable a b) (across : h.Across a b x y) {c d : Address}
    (address : (h.shape x).address? = some c) (address' : (h.shape y).address? = some d)
    (types : h.typeOf x = h.typeOf y) (alike : h.FoundAlike x y)
    {like : List Address → Value → Value → Likeness} {pairs : Walk (Value × Value)}
    (compared : h.likePairs (h.shape x) (h.shape y) = .ok (some pairs))
    (found : ∀ p ∈ pairs, ∃ u v, p = .ok (u, v) ∧ h.FoundAlike u v)
    (each : ∀ p, h.Across a b p.1 p.2 → ∀ seen last entered, h.History a b seen entered →
      like seen p.1 p.2 = .ok (some last) →
        ∃ entered', h.Onward a b entered last entered' ∧ h.Traversed entered' p)
    (history : h.History a b seen entered)
    (run : likeEach like (enterComposite (enterComposite seen c) d) pairs = .ok (some last)) :
    ∃ entered', h.Onward a b entered last entered' ∧ h.Traversed entered' (x, y) := by
  obtain ⟨members, keep, of, rfl, inside⟩ :=
    exists_members_of_alike ready across address address' alike compared found
  have own := eq_ref_of_address address
  have own' := eq_ref_of_address address'
  subst own own'
  have entry := history.enter (q := (c, d)) across (not_isLeaf_of_address address)
    (not_isLeaf_of_address address')
  obtain ⟨entered', onward, others⟩ := onward_each (fun p member =>
    each p (across.member types of (List.mem_filter.mp member).1)) entry run
  have opened : h.Opened entered' (c, d) := by
    refine ⟨members, of, fun p member => ?_⟩
    obtain ⟨kinds, passed⟩ := inside p member
    cases kept : keep p with
    | true => exact others p (List.mem_filter.mpr ⟨member, kept⟩)
    | false => exact ⟨kinds, .inl (passed kept)⟩
  have here : (c, d) ∈ entered' := onward.kept List.mem_cons_self
  refine ⟨entered', ⟨onward.history, fun p old => onward.kept (List.mem_cons_of_mem _ old), ?_⟩,
    types, .inr ⟨_, here, rfl⟩⟩
  intro p member
  rcases onward.opened p member with before | later
  · rcases List.mem_cons.mp before with rfl | old
    · exact .inr opened
    · exact .inl old
  · exact .inr later

/-- Values that are found alike have been passed, and all that has been entered for it is opened. -/
theorem onward_likeWithin (ready : h.Answerable a b) (unmixed : h.Unmixed a b) {budget : Nat}
    (across : h.Across a b x y) (history : h.History a b seen entered)
    (alike : h.likeWithin budget seen x y = .ok (some last)) :
    ∃ entered', h.Onward a b entered last entered' ∧ h.Traversed entered' (x, y) := by
  induction budget generalizing x y seen last entered with
  | zero => cases alike
  | succ budget ih =>
      cases alikeStep alike with
      | leaf types leaf equal => exact ⟨entered, .refl history, types, .inl ⟨leaf, equal⟩⟩
      | again types address address' met =>
          have own := eq_ref_of_address address
          have own' := eq_ref_of_address address'
          subst own own'
          have again := history.again unmixed across (not_isLeaf_of_address address) met
          exact ⟨entered, .refl history, types, .inr ⟨_, again, rfl⟩⟩
      | members types address address' compared each =>
          refine onward_members ready across address address' types ⟨_, _, _, alike⟩ compared ?_
            (fun p across seen last entered => ih across) history each
          intro p inside
          obtain ⟨u, v, s, s', ok, answer⟩ := likeEach_ok each p inside
          exact ⟨u, v, ok, budget, s, s', answer⟩

theorem Traversed.pairedStep (ready : h.Answerable a b) {entered : List Meeting}
    (opened : ∀ q ∈ entered, h.Opened entered q)
    (related : h.Across a b x y ∧ h.Traversed entered (x, y)) :
    h.PairedStep (fun x y => h.Across a b x y ∧ h.Traversed entered (x, y)) x y := by
  obtain ⟨across, types, ⟨leaf, equal⟩ | ⟨q, inside, same⟩⟩ := related
  · obtain ⟨left, right⟩ := across.reaches
    have leaf' : h.isLeaf y := by rwa [isLeaf, ← ready.kinds x y left right types]
    exact .leaf types leaf leaf' equal
  · cases same
    obtain ⟨members, of, passed⟩ := opened q inside
    exact .composite types of fun p member => ⟨across.member types of member, passed p member⟩

/-- Values that are alike unfold to one tree, if what is on the left is finite. -/
theorem exists_trail_of_like (ready : h.Answerable a b) (unmixed : h.Unmixed a b)
    (grounded : Acc (fun u v => h.Holds v u) a) (alike : h.like a b = .ok true) :
    ∃ t, h.Trail [(a, b)] t := by
  unfold like likeFrom at alike
  cases answer : h.likeWithin (h.objects.size + 1) [] a b with
  | error f => simp [answer, Except.map] at alike
  | ok found =>
      cases found with
      | none => simp [answer, Except.map] at alike
      | some last =>
          obtain ⟨entered, onward, passed⟩ :=
            onward_likeWithin ready unmixed .root .none answer
          have opened : ∀ q ∈ entered, h.Opened entered q := fun q inside =>
            (onward.opened q inside).resolve_left List.not_mem_nil
          obtain ⟨_, forest⟩ := Forest.exists_iff_grounded.mpr grounded
          exact forest.trail (fun x y => Traversed.pairedStep ready opened)
            (.cons ⟨.root, passed⟩ .nil)

/-- Values that are alike are alike the other way round. -/
theorem like_swap_true (bare : h.hasFieldSource "object" = false) (ready : h.Answerable a b)
    (unmixed : h.Unmixed a b) (grounded : Acc (fun u v => h.Holds v u) a)
    (alike : h.like a b = .ok true) : h.like b a = .ok true := by
  obtain ⟨t, trail⟩ := exists_trail_of_like ready unmixed grounded alike
  obtain ⟨u, turned, order⟩ := trail.swap ready (by simpa using ⟨.refl, .refl⟩)
  have steady : Steady t := by
    simpa [like_equal_trees bare ready.settled trail] using alike
  have steady' := steady_swap ready.settled unmixed trail turned order steady
  rw [like_equal_trees bare ready.settled.swap turned, decide_eq_true steady']

/-- To be alike is symmetric for values without cycles, if no composite that stands opposite itself
    stands opposite another one. -/
theorem like_symm (bare : h.hasFieldSource "object" = false) (ready : h.Answerable a b)
    (unmixed : h.Unmixed a b) (grounded : Acc (fun u v => h.Holds v u) a)
    (grounded' : Acc (fun u v => h.Holds v u) b) :
    ∃ r, h.like a b = .ok r ∧ h.like b a = .ok r := by
  have contained : h.Contained := contained_of_bare bare
  obtain ⟨r, one⟩ := ready.like contained
  obtain ⟨r', other⟩ := ready.swap.like contained
  have same : r = r' := by
    apply Bool.eq_iff_iff.mpr
    constructor
    · rintro rfl
      have back := like_swap_true bare ready unmixed grounded one
      exact Except.ok.inj (other.symm.trans back)
    · rintro rfl
      have back := like_swap_true bare ready.swap (unmixed.swap ready.settled) grounded' other
      exact Except.ok.inj (one.symm.trans back)
  exact ⟨r, one, same ▸ other⟩

/-- Two lists that are the same, and dictionaries with the first of them under two keys.  One has the
    second list in its place, and is written the other way round. -/
def crossed : Heap where
  classes := Standard.classes []
  objects :=
    let list (items : List Value) : Object := { cls := "list", body := .sequence .list items }
    let dict (entries : List (Key × Value)) : Object :=
      { cls := "dict", body := .mapping .dict entries }
    #[list [.int 1], list [.int 1], dict [(.text "k", .ref 0), (.text "l", .ref 0)],
      dict [(.text "l", .ref 0), (.text "k", .ref 1)],
      dict [(.text "l", .ref 0), (.text "k", .ref 0)]]

def crossedKeys : List Key := [.text "k", .text "l"]

/-- What is in the dictionaries. -/
def crossedValues : List Value := [.ref 2, .ref 3, .ref 4, .ref 0, .ref 1, .int 1]

theorem crossed_within {v : Value} (start : a ∈ crossedValues) (start' : b ∈ crossedValues)
    (within : crossed.Within a b v) : v ∈ crossedValues := by
  have closed : ∀ w ∈ crossedValues, ∀ x ∈ crossed.branches w, x ∈ crossedValues := by
    decide +kernel
  exact within.elim (·.among start closed) (·.among start' closed)

theorem crossed_files {v : Value} {es : List (Key × Value)} (inside : v ∈ crossedValues)
    (files : crossed.Files v es) : (es.map (·.1)).Nodup ∧ ∀ k ∈ es.map (·.1), k ∈ crossedKeys := by
  simp only [crossedValues, List.mem_cons, List.not_mem_nil, or_false] at inside
  rcases inside with rfl | rfl | rfl | rfl | rfl | rfl <;> rcases files with shape | shape <;>
    cases shape
  all_goals decide

theorem crossed_answerable (start : a ∈ crossedValues) (start' : b ∈ crossedValues) :
    crossed.Answerable a b where
  settled := .of_listed crossedKeys (by decide +kernel) (by decide +kernel)
    fun v es within => crossed_files (crossed_within start start' within)
  kinds := by
    have kinds : ∀ x ∈ crossedValues, ∀ y ∈ crossedValues, crossed.typeOf x = crossed.typeOf y →
        crossed.kind x = crossed.kind y := by
      decide +kernel
    exact fun x y left right => kinds x (crossed_within start start' (.inl left)) y
      (crossed_within start start' (.inr right))
  told := by
    have plain : ∀ v ∈ crossedValues, crossed.kind v ≠ .structured := by decide +kernel
    intro v c within shape
    exact absurd (by rw [kind, shape, Shape.kind]) (plain v (crossed_within start start' within))
  leaves := by
    have equal : ∀ x ∈ crossedValues, ∀ y ∈ crossedValues, crossed.typeOf x = crossed.typeOf y →
        crossed.isLeaf x → crossed.leafEqual x y = .ok true ∧ crossed.leafEqual y x = .ok true := by
      decide +kernel
    intro x y left right types leaf
    exact ⟨true, equal x (crossed_within start start' (.inl left)) y
      (crossed_within start start' (.inr right)) types leaf⟩
  present := by
    have present : ∀ v ∈ crossedValues, ∀ u ∈ crossed.branches v,
        crossed.typeOf u ≠ crossed.typeOf .null := by
      decide +kernel
    intro v c kind es within shape e member
    have branches : e.2 ∈ crossed.branches v :=
      holds_iff_branches.mp (.entry (.mapping shape) member)
    exact present v (crossed_within start start' within) e.2 branches

theorem crossed_grounded {v : Value} (inside : v ∈ crossedValues) :
    Acc (fun u v => crossed.Holds v u) v := by
  have of_branches (v : Value) (below : ∀ u ∈ crossed.branches v,
      Acc (fun u v => crossed.Holds v u) u) : Acc (fun u v => crossed.Holds v u) v :=
    ⟨v, fun u holds => below u (holds_iff_branches.mp holds)⟩
  have number := of_branches (.int 1) (by simp [branches, shape])
  have list := of_branches (.ref 0) (List.forall_mem_singleton.mpr number)
  have other := of_branches (.ref 1) (List.forall_mem_singleton.mpr number)
  simp only [crossedValues, List.mem_cons, List.not_mem_nil, or_false] at inside
  rcases inside with rfl | rfl | rfl | rfl | rfl | rfl
  · exact of_branches _ (List.forall_mem_cons.mpr ⟨list, List.forall_mem_singleton.mpr list⟩)
  · exact of_branches _ (List.forall_mem_cons.mpr ⟨list, List.forall_mem_singleton.mpr other⟩)
  · exact of_branches _ (List.forall_mem_cons.mpr ⟨list, List.forall_mem_singleton.mpr list⟩)
  · exact list
  · exact other
  · exact number

/-- Dictionaries with the same list in the same places are alike both ways. -/
theorem like_symm_crossed : crossed.hasFieldSource "object" = false ∧
    crossed.Answerable (.ref 2) (.ref 4) ∧ crossed.Unmixed (.ref 2) (.ref 4) ∧
    ∃ r, crossed.like (.ref 2) (.ref 4) = .ok r ∧ crossed.like (.ref 4) (.ref 2) = .ok r := by
  have left : .ref 2 ∈ crossedValues := by simp [crossedValues]
  have right : .ref 4 ∈ crossedValues := by simp [crossedValues]
  have ready := crossed_answerable left right
  have unmixed : crossed.Unmixed (.ref 2) (.ref 4) := by
    let pairs : List (Value × Value) := [(.ref 2, .ref 4), (.ref 0, .ref 0), (.int 1, .int 1)]
    have start : (.ref 2, .ref 4) ∈ pairs := List.mem_cons_self
    have closed : ∀ p ∈ pairs, ∀ u ∈ crossed.branches p.1, ∀ v ∈ crossed.branches p.2,
        (u, v) ∈ pairs := by
      decide +kernel
    intro c d _ _ self other
    have own := self.among start closed
    have there := other.imp (·.among start closed) (·.among start closed)
    simp [pairs] at own there
    grind
  exact ⟨rfl, ready, unmixed,
    like_symm rfl ready unmixed (crossed_grounded left) (crossed_grounded right)⟩

/-- A dictionary is unlike another one that it is like the other way round, where the list under one
    key is the same object and the list under another key is not. -/
theorem like_not_symm : ¬ ∀ (h : Heap) (a b : Value), h.hasFieldSource "object" = false →
    h.Answerable a b → Acc (fun u v => h.Holds v u) a → Acc (fun u v => h.Holds v u) b →
    h.like a b = h.like b a := by
  intro claim
  have left : .ref 2 ∈ crossedValues := by simp [crossedValues]
  have right : .ref 3 ∈ crossedValues := by simp [crossedValues]
  have same := claim crossed (.ref 2) (.ref 3) rfl (crossed_answerable left right)
    (crossed_grounded left) (crossed_grounded right)
  have alike : crossed.like (.ref 2) (.ref 3) = .ok true := rfl
  have differ : crossed.like (.ref 3) (.ref 2) = .ok false := rfl
  cases alike.symm.trans (same.trans differ)

end Assay.Heap
