import Assay.Proofs.Likeness.Raising

/-! # Comparisons that find nothing unequal

A tour comes by pairs of values: leaves that are not unequal, one object on both sides, or two
composites of one class with their members in pairs.  Only in the last case it goes on to the
members.

A comparison takes the same way.  What it has entered stops it where it comes by a composite again
that is not one object on both sides.  This does not happen if the tour comes by each composite once
on either side, and if one that is found in both values stands opposite only itself.
-/

namespace Assay

/-! ## Answers -/

/-- An answer other than that there is a difference.  Nothing has been entered on the way that may
    not be. -/
inductive Accepts (seen : List Address) (P : Address → Prop) : Likeness → Prop where
  | raised {f} : Accepts seen P (.error f)
  | alike {seen'} : (∀ c ∈ seen', c ∈ seen ∨ P c) → Accepts seen P (.ok (some seen'))

variable {x y : Value} {seen seen' : List Address} {P Q : Address → Prop}

theorem Accepts.not_unlike {answer : Likeness} (accepts : Accepts seen P answer) :
    answer.map (·.isSome) ≠ .ok false := by
  cases accepts <;> simp [Except.map]

theorem Accepts.mono {answer : Likeness} (accepts : Accepts seen P answer)
    (more : ∀ c, P c → Q c) : Accepts seen Q answer := by
  cases accepts with
  | raised => exact .raised
  | alike new => exact .alike fun c present => (new c present).imp_right (more c)

theorem Accepts.after {answer : Likeness} (accepts : Accepts seen' Q answer)
    (new : ∀ c ∈ seen', c ∈ seen ∨ P c) (more : ∀ c, Q c → P c) : Accepts seen P answer := by
  cases accepts with
  | raised => exact .raised
  | alike later =>
      apply Accepts.alike
      intro c present
      rcases later c present with before | here
      · exact new c before
      · exact .inr (more c here)

theorem Accepts.cons {like : List Address → Value → Value → Likeness}
    {rest : Walk (Value × Value)} (first : Accepts seen P (like seen x y))
    (others : ∀ seen', (∀ c ∈ seen', c ∈ seen ∨ P c) → Accepts seen Q (likeEach like seen' rest)) :
    Accepts seen Q (likeEach like seen (.ok (x, y) :: rest)) := by
  rw [likeEach]
  generalize like seen x y = answer at first
  cases first with
  | raised => exact .raised
  | alike new => exact others _ new

theorem Yields.accepts {like : List Address → Value → Value → Likeness}
    {w : Walk (Value × Value)} {pairs : List (Value × Value)} (yields : Yields w pairs)
    (each : ∀ p ∈ pairs, ∀ seen, Accepts seen P (like seen p.1 p.2)) :
    ∀ seen, Accepts seen P (likeEach like seen w) := by
  induction yields with
  | done => exact fun seen => .alike fun c present => .inl present
  | failed => exact fun seen => .raised
  | next _ ih =>
      intro seen
      refine (each _ List.mem_cons_self seen).cons fun seen' new => ?_
      exact (ih (fun p later => each p (List.mem_cons_of_mem _ later)) seen').after new fun _ => id

namespace Heap

variable (h : Heap)

/-! ## Ways through two values -/

/-- What two values have at one place.  The way there leads through different objects of one
    class. -/
inductive Opposite (a b : Value) : Value → Value → Prop where
  | root : Opposite a b a b
  | member {x y q members p} : Opposite a b x y → h.typeOf x = h.typeOf y → x ≠ y →
      h.Members x y q members → p ∈ members → Opposite a b p.1 p.2

/-- A leaf within a value is not unequal to itself. -/
def SelfEqual (v : Value) : Prop :=
  ∀ u, h.Reaches v u → h.isLeaf u → h.leafEqual u u ≠ .ok false

/-- Pairs of values without anything unequal, and the composites that are looked into. -/
inductive Tour : List (Value × Value) → List Meeting → Prop where
  | done : Tour [] []
  | leaf {x y pairs t} : h.typeOf x = h.typeOf y → h.isLeaf x → h.leafEqual x y ≠ .ok false →
      Tour pairs t → Tour ((x, y) :: pairs) t
  | one {x c pairs t} : (h.shape x).address? = some c → h.SelfEqual x → Tour pairs t →
      Tour ((x, x) :: pairs) t
  | composite {x y q members inner pairs t} : h.typeOf x = h.typeOf y → x ≠ y →
      h.Members x y q members → Tour members inner → Tour pairs t →
      Tour ((x, y) :: pairs) (q :: inner ++ t)

/-- Composites that stand opposite others, each of them once, are found on their own side only. -/
structure Single (a b : Value) (t : List Meeting) : Prop where
  left : (t.map (·.1)).Nodup
  right : (t.map (·.2)).Nodup
  sides : ∀ q ∈ t, h.HasComposite a q.1 ∧ h.HasComposite b q.2
  own : ∀ q ∈ t, ¬ h.HasComposite b q.1 ∧ ¬ h.HasComposite a q.2

/-- A composite is found in both values. -/
def Common (a b : Value) (c : Address) : Prop := h.HasComposite a c ∧ h.HasComposite b c

def Unmet (seen : List Address) (t : List Meeting) : Prop := ∀ q ∈ t, q.1 ∉ seen ∧ q.2 ∉ seen

variable {h} {a b x y z : Value} {seen seen' : List Address} {pairs : List (Value × Value)}
  {t : List Meeting}

/-! ## One object on both sides -/

theorem matching_self (es : List (Key × Value)) :
    h.Matching es es (es.map fun e => (e, e)) where
  left := by rw [List.map_map]; exact List.map_id es
  right := by rw [List.map_map]; exact .of_eq (List.map_id es)
  same := List.forall_mem_map.mpr fun e _ => sameKey_self e.1.value

/-- A composite that tells its members has each of them opposite itself. -/
theorem members_self {c : Address} (address : (h.shape z).address? = some c)
    {r : Option (Walk (Value × Value))} (compared : h.likePairs (h.shape z) (h.shape z) = .ok r) :
    ∃ members, h.Members z z (c, c) members := by
  cases shape : h.shape z with
  | leaf => simp [shape, Shape.address?] at address
  | sequence d xs =>
      obtain rfl : d = c := by simpa [shape, Shape.address?] using address
      exact ⟨_, .sequence shape shape rfl⟩
  | mapping d kind es =>
      obtain rfl : d = c := by simpa [shape, Shape.address?] using address
      exact ⟨_, .mapping shape shape (matching_self es)⟩
  | structured d =>
      obtain rfl : d = c := by simpa [shape, Shape.address?] using address
      cases own : h.fields d with
      | error f =>
        simp [shape, likePairs, fieldPairs, own, bind, Except.bind, Except.map] at compared
      | ok es => exact ⟨_, .structured shape shape own own (matching_self es)⟩

theorem likeWithin_self (kept : h.KeysKept a b) (within : h.Within a b z) (equal : h.SelfEqual z)
    (budget : Nat) (seen : List Address) :
    Accepts seen (h.HasComposite z) (h.likeWithin budget seen z z) := by
  induction budget generalizing z seen with
  | zero => exact .raised
  | succ budget ih =>
      simp only [likeWithin, bne_self_eq_false, Bool.false_eq_true, if_false]
      cases address : (h.shape z).address? with
      | none =>
          cases compared : h.leafEqual z z with
          | error f => exact .raised
          | ok r =>
              cases r with
              | false => exact absurd compared (equal z .refl (isLeaf_iff.mpr address))
              | true => exact .alike fun c present => .inl present
      | some c =>
          simp only [Bool.or_self, beq_self_eq_true, if_true]
          split
          · exact .alike fun d present => .inl present
          · cases compared : h.likePairs (h.shape z) (h.shape z) with
            | error f => exact .raised
            | ok r =>
                obtain ⟨members, of⟩ := members_self address compared
                have same := of.self fun es files => kept.keysApart within files
                have below (p : Value × Value) (inside : p ∈ members) : h.Holds z p.1 :=
                  of.holds_left.mpr (List.mem_map_of_mem inside)
                obtain ⟨keep, w, _, rfl, yields⟩ := of.likePairs_only kept within within
                  (fun p inside => congrArg h.typeOf (same p inside))
                  (fun p inside leaf => same p inside ▸ equal p.1 (.single (below p inside)) leaf)
                  compared
                refine Accepts.after (Q := h.HasComposite z) (yields.accepts ?_ _) ?_ fun _ => id
                · intro p inside seen'
                  have member := (List.mem_filter.mp inside).1
                  have holds := below p member
                  have answer := ih (within.below (.single holds))
                    (fun u reached => equal u (reached.head holds)) seen'
                  rw [← same p member]
                  exact answer.mono fun d has => has.below (.single holds)
                · intro d present
                  simp only [mem_enterComposite] at present
                  rcases present with (old | rfl) | rfl
                  · exact .inl old
                  · exact .inr ⟨z, .refl, address⟩
                  · exact .inr ⟨z, .refl, address⟩

/-! ## Tours -/

namespace Tour

theorem typeOf_eq (tour : h.Tour pairs t) : ∀ p ∈ pairs, h.typeOf p.1 = h.typeOf p.2 := by
  induction tour with
  | done => simp
  | leaf types _ _ _ ih => simpa [types] using ih
  | one _ _ _ ih => simpa using ih
  | composite types _ _ _ _ _ ih => simpa [types] using ih

theorem leafEqual (tour : h.Tour pairs t) :
    ∀ p ∈ pairs, h.isLeaf p.1 → h.leafEqual p.1 p.2 ≠ .ok false := by
  induction tour with
  | done => simp
  | leaf _ _ equal _ ih => exact List.forall_mem_cons.mpr ⟨fun _ => equal, ih⟩
  | one address _ _ ih =>
      refine List.forall_mem_cons.mpr ⟨fun leaf => ?_, ih⟩
      exact absurd ⟨_, .refl, address⟩ (not_hasComposite_leaf leaf)
  | composite _ _ of _ _ _ ih =>
      refine List.forall_mem_cons.mpr ⟨fun leaf => ?_, ih⟩
      exact absurd ⟨_, .refl, of.address_left⟩ (not_hasComposite_leaf leaf)

/-- What a tour looks into is found below its pairs. -/
theorem sides (tour : h.Tour pairs t) : ∀ q ∈ t, ∃ p ∈ pairs,
    h.HasComposite p.1 q.1 ∧ h.HasComposite p.2 q.2 := by
  induction tour with
  | done => simp
  | leaf _ _ _ _ ih | one _ _ _ ih =>
      intro q inside
      obtain ⟨p, later, has⟩ := ih q inside
      exact ⟨p, List.mem_cons_of_mem _ later, has⟩
  | @composite x y q _ _ _ _ _ _ of _ _ ihMembers ih =>
      intro q' inside
      rcases List.mem_append.mp inside with first | later
      · refine ⟨_, List.mem_cons_self, ?_⟩
        rcases List.mem_cons.mp first with rfl | below
        · exact ⟨⟨x, .refl, of.address_left⟩, y, .refl, of.address_right⟩
        · obtain ⟨p, member, left, right⟩ := ihMembers q' below
          exact ⟨left.below (.single (of.holds_left.mpr (List.mem_map_of_mem member))),
            right.below (.single (of.holds_right.mpr (List.mem_map_of_mem member)))⟩
      · obtain ⟨p, other, has⟩ := ih q' later
        exact ⟨p, List.mem_cons_of_mem _ other, has⟩

/-- What a tour looks into are different objects at one place. -/
theorem opposite (tour : h.Tour pairs t) (places : ∀ p ∈ pairs, h.Opposite a b p.1 p.2) :
    ∀ q ∈ t, h.Opposite a b (.ref q.1) (.ref q.2) ∧ h.typeOf (.ref q.1) = h.typeOf (.ref q.2) ∧
      q.1 ≠ q.2 := by
  induction tour with
  | done => simp
  | leaf _ _ _ _ ih | one _ _ _ ih =>
    exact ih fun p later => places p (List.mem_cons_of_mem _ later)
  | @composite x y q _ _ _ _ types apart of _ _ ihMembers ih =>
      have here := places _ List.mem_cons_self
      have left := eq_ref_of_address of.address_left
      have right := eq_ref_of_address of.address_right
      intro q' inside
      rcases List.mem_append.mp inside with first | later
      · rcases List.mem_cons.mp first with rfl | below
        · refine ⟨left ▸ right ▸ here, left ▸ right ▸ types, fun same => apart ?_⟩
          rw [left, right, same]
        · exact ihMembers (fun p member => here.member types apart of member) q' below
      · exact ih (fun p later => places p (List.mem_cons_of_mem _ later)) q' later

theorem append {pairs' : List (Value × Value)} {t' : List Meeting} (tour : h.Tour pairs t)
    (tour' : h.Tour pairs' t') : h.Tour (pairs ++ pairs') (t ++ t') := by
  induction tour with
  | done => exact tour'
  | leaf types leaf equal _ ih => exact .leaf types leaf equal ih
  | one address equal _ ih => exact .one address equal ih
  | composite types apart of inner _ _ ih =>
      rw [List.append_assoc]
      exact .composite types apart of inner ih

end Tour

/-! ## What is met once -/

/-- Composites that come later have not been met by what is found on both sides or has come
    before. -/
theorem Single.unmet (earlier : List Meeting) (single : h.Single a b (earlier ++ t))
    (unmet : Unmet seen t)
    (new : ∀ c ∈ seen', c ∈ seen ∨ c ∈ composites earlier ∨ h.Common a b c) : Unmet seen' t := by
  have left := single.left
  have right := single.right
  rw [List.map_append, List.nodup_append] at left right
  have passed (c : Address) (present : c ∈ composites earlier) :
      c ∈ earlier.map (·.1) ∨ c ∈ earlier.map (·.2) := by
    simpa [composites, List.mem_flatMap, exists_or, and_or_left, eq_comm] using present
  intro q inside
  have member : q ∈ earlier ++ t := List.mem_append_right _ inside
  constructor
  · intro present
    rcases new q.1 present with old | earlier' | ⟨_, both⟩
    · exact (unmet q inside).1 old
    · rcases passed q.1 earlier' with here | there
      · exact left.2.2 _ here _ (List.mem_map_of_mem inside) rfl
      · obtain ⟨q', before, same⟩ := List.mem_map.mp there
        have found := (single.sides q' (List.mem_append_left _ before)).2
        exact (single.own q member).1 (same ▸ found)
    · exact (single.own q member).1 both
  · intro present
    rcases new q.2 present with old | earlier' | ⟨both, _⟩
    · exact (unmet q inside).2 old
    · rcases passed q.2 earlier' with here | there
      · obtain ⟨q', before, same⟩ := List.mem_map.mp here
        have found := (single.sides q' (List.mem_append_left _ before)).1
        exact (single.own q member).2 (same ▸ found)
      · exact right.2.2 _ there _ (List.mem_map_of_mem inside) rfl
    · exact (single.own q member).2 both

theorem Single.sublist {u : List Meeting} (single : h.Single a b t) (inside : u.Sublist t) :
    h.Single a b u where
  left := single.left.sublist (inside.map _)
  right := single.right.sublist (inside.map _)
  sides q member := single.sides q (inside.subset member)
  own q member := single.own q (inside.subset member)

/-! ## The way of a comparison -/

theorem likeWithin_leaf_accepts (types : h.typeOf x = h.typeOf y) (leaf : h.isLeaf x)
    (equal : h.leafEqual x y ≠ .ok false) (budget : Nat) (seen : List Address) :
    Accepts seen (fun _ => False) (h.likeWithin budget seen x y) := by
  cases budget with
  | zero => exact .raised
  | succ budget =>
      simp only [likeWithin, types, bne_self_eq_false, Bool.false_eq_true, if_false,
        isLeaf_iff.mp leaf]
      cases compared : h.leafEqual x y with
      | error f => exact .raised
      | ok r =>
          cases r with
          | false => exact absurd compared equal
          | true => exact .alike fun c present => .inl present

/-- Two composites that have not been met are entered, and their members are compared. -/
theorem Members.accepts (kept : h.KeysKept a b) {q : Meeting} {members : List (Value × Value)}
    {inner : List Meeting} (of : h.Members x y q members) (types : h.typeOf x = h.typeOf y)
    (tour : h.Tour members inner) (left : h.Reaches a x) (right : h.Reaches b y)
    (single : h.Single a b (q :: inner)) (unmet : Unmet seen (q :: inner))
    (inside : ∀ (keep : Value × Value → Bool) w budget seen', (∀ p, keep p = false → h.isLeaf p.1) →
      Yields w (members.filter keep) → Unmet seen' inner →
      Accepts seen' (fun c => c ∈ composites inner ∨ h.Common a b c)
        (likeEach (h.likeWithin budget) seen' w)) (budget : Nat) :
    Accepts seen (fun c => c ∈ composites (q :: inner) ∨ h.Common a b c)
      (h.likeWithin budget seen x y) := by
  cases budget with
  | zero => exact .raised
  | succ budget =>
      have new := unmet q List.mem_cons_self
      simp only [likeWithin, types, bne_self_eq_false, Bool.false_eq_true, if_false,
        of.address_left, of.address_right, List.contains_eq_mem, new.1, new.2, decide_false,
        Bool.or_self]
      cases compared : h.likePairs (h.shape x) (h.shape y) with
      | error f => exact .raised
      | ok r =>
          obtain ⟨keep, w, leaves, rfl, yields⟩ := of.likePairs_only kept (.inl left) (.inr right)
            tour.typeOf_eq tour.leafEqual compared
          have split (c : Address) : c ∈ composites (q :: inner) ↔
              (c = q.1 ∨ c = q.2) ∨ c ∈ composites inner := by
            simp [composites, or_assoc]
          have entered (c : Address) (present : c ∈ enterComposite (enterComposite seen q.1) q.2) :
              c ∈ seen ∨ c = q.1 ∨ c = q.2 := by
            simpa only [mem_enterComposite, or_assoc] using present
          have still : Unmet (enterComposite (enterComposite seen q.1) q.2) inner :=
            Single.unmet [q] single
              (fun q' later => unmet q' (List.mem_cons_of_mem _ later)) fun c present =>
                (entered c present).imp_right fun here => .inl (by simpa [composites] using here)
          refine (inside keep w budget _ leaves yields still).after (fun c present => ?_)
            fun c found => ?_
          · rw [split, or_assoc]
            exact (entered c present).imp_right .inl
          · rw [split, or_assoc]
            exact .inr found

/-- A comparison that takes the way of a tour does not find a difference. -/
theorem Tour.accepts (kept : h.KeysKept a b) (tour : h.Tour pairs t) (single : h.Single a b t)
    (reached : ∀ p ∈ pairs, h.Reaches a p.1 ∧ h.Reaches b p.2) {keep : Value × Value → Bool}
    (leaves : ∀ p, keep p = false → h.isLeaf p.1) {w : Walk (Value × Value)}
    (yields : Yields w (pairs.filter keep)) (budget : Nat) (unmet : Unmet seen t) :
    Accepts seen (fun c => c ∈ composites t ∨ h.Common a b c)
      (likeEach (h.likeWithin budget) seen w) := by
  induction tour generalizing keep w seen budget with
  | done =>
      cases yields with
      | done => exact .alike fun c present => .inl present
      | failed => exact .raised
  | @leaf x y pairs t types leaf equal _ ih =>
      have later : ∀ p ∈ pairs, h.Reaches a p.1 ∧ h.Reaches b p.2 := fun p later =>
        reached p (List.mem_cons_of_mem _ later)
      cases kept' : keep (x, y) with
      | false =>
          rw [List.filter_cons_of_neg (by simp [kept'])] at yields
          exact ih single later leaves yields budget unmet
      | true =>
          rw [List.filter_cons_of_pos kept'] at yields
          cases yields with
          | failed => exact .raised
          | next rest =>
              refine (likeWithin_leaf_accepts types leaf equal budget seen).cons fun seen' new => ?_
              have still : Unmet seen' t := Single.unmet [] single unmet fun c present =>
                .inl ((new c present).resolve_right id)
              exact (ih single later leaves rest budget still).after
                (fun c present => .inl ((new c present).resolve_right id)) fun _ => id
  | @one x c pairs t address equal _ ih =>
      obtain ⟨left, right⟩ := reached _ List.mem_cons_self
      have kept' : keep (x, x) = true := by
        by_contra passed
        exact not_hasComposite_leaf (leaves (x, x) (by simpa using passed)) ⟨x, .refl, address⟩
      rw [List.filter_cons_of_pos kept'] at yields
      cases yields with
      | failed => exact .raised
      | next rest =>
          have same := (likeWithin_self kept (.inl left) equal budget seen).mono
            fun c has => (⟨has.below left, has.below right⟩ : h.Common a b c)
          refine same.cons fun seen' new => ?_
          have still : Unmet seen' t := Single.unmet [] single unmet fun c present =>
            (new c present).imp_right .inr
          exact (ih single (fun p later => reached p (List.mem_cons_of_mem _ later)) leaves rest
            budget still).after (fun c present => (new c present).imp_right .inr) fun _ => id
  | @composite x y q members inner pairs t types _ of tour _ ihMembers ih =>
      obtain ⟨left, right⟩ := reached _ List.mem_cons_self
      have kept' : keep (x, y) = true := by
        by_contra passed
        exact not_hasComposite_leaf (leaves (x, y) (by simpa using passed))
          ⟨x, .refl, of.address_left⟩
      rw [List.filter_cons_of_pos kept'] at yields
      cases yields with
      | failed => exact .raised
      | next rest =>
          have first : h.Single a b (q :: inner) := single.sublist (List.sublist_append_left _ _)
          have below : ∀ p ∈ members, h.Reaches a p.1 ∧ h.Reaches b p.2 := fun p inside =>
            ⟨left.tail (of.holds_left.mpr (List.mem_map_of_mem inside)),
              right.tail (of.holds_right.mpr (List.mem_map_of_mem inside))⟩
          have here := of.accepts kept types tour left right first
            (fun q' inside => unmet q' (List.mem_append_left _ inside))
            (fun _ _ budget _ leaves' yields' still =>
              ihMembers (first.sublist (List.sublist_cons_self _ _)) below leaves' yields' budget
                still) budget
          refine here.cons fun seen' new => ?_
          have still : Unmet seen' t := Single.unmet (q :: inner) single
            (fun q' later => unmet q' (List.mem_append_right _ later)) new
          have split (c : Address) : c ∈ composites (q :: inner ++ t) ↔
              c ∈ composites (q :: inner) ∨ c ∈ composites t := by
            simp only [composites, List.flatMap_append, List.mem_append]
          refine (ih (single.sublist (List.sublist_append_right _ _))
            (fun p later => reached p (List.mem_cons_of_mem _ later)) leaves rest budget still).after
            (fun c present => ?_) fun c found => ?_
          · rw [split, or_assoc]
            exact (new c present).imp_right (Or.imp_right .inr)
          · rw [split, or_assoc]
            exact .inr found

end Heap

end Assay
