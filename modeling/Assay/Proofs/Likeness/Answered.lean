import Assay.Proofs.Likeness.Separate
import Assay.Proofs.Likeness.Visits

/-! # Comparisons that are answered

A comparison tells the fields of objects, looks keys up and compares leaves.  Where all of this is
answered, so is the comparison: it enters each composite once, and its budget is enough for that.
-/

namespace Assay.Heap

variable (h : Heap)

/-- What a comparison asks of two values is answered, and equally if they change sides.  What is
    missing cannot pass for a value, as no mapping has null for one. -/
structure Answerable (a b : Value) : Prop where
  settled : h.SettledWithin a b
  kinds : h.KindByClass a b
  told : ∀ v c, h.Within a b v → h.shape v = .structured c → ∃ es, h.fields c = .ok es
  leaves : ∀ x y, h.Reaches a x → h.Reaches b y → h.typeOf x = h.typeOf y → h.isLeaf x →
    ∃ r, h.leafEqual x y = .ok r ∧ h.leafEqual y x = .ok r
  present : ∀ v c kind es, h.Within a b v → h.shape v = .mapping c kind es →
    ∀ e ∈ es, h.typeOf e.2 ≠ h.typeOf .null

variable {h} {a b x y : Value} {es es' : List (Key × Value)} {K : Key → Prop}

/-! ## Members -/

namespace SettledEntries

theorem find?_total (keys : h.SettledEntries K es es') {e : Key × Value} (member : e ∈ es) :
    ∃ r, h.find? e.1.value es' = .ok r := by
  have own := keys.left e member
  have now : h.key e.1.value = .ok e.1 := keys.current e.1 own
  have asked : ∀ e' ∈ es', ∃ b, e.1.isFor h.equal e'.1 = .ok b := fun e' inside =>
    ⟨_, (keys.comparable e'.1 e.1 (keys.right e' inside) own).isFor⟩
  obtain ⟨r, found⟩ := Entries.search_total asked
  exact ⟨r, by simp only [find?, under?, now, found]⟩

/-- Names are compared, and if they are the same then each is found. -/
theorem membersEqual_total (keys : h.SettledEntries K es es') :
    ∃ r, Heap.membersEqual h.equal (es.map (·.1)) (es'.map (·.1)) = .ok r ∧
      (r = true → ∀ e ∈ es, ∃ v, h.find e.1.value es' = .ok v) := by
  unfold Heap.membersEqual
  split
  · exact ⟨false, rfl, by simp⟩
  · have asked (e : Key × Value) (member : e ∈ es) :
        (es'.map (·.1)).anyM (e.1.isFor h.equal) =
          (h.find? e.1.value es').map (·.isSome) := by
      have now : h.key e.1.value = .ok e.1 := keys.current e.1 (keys.left e member)
      simp only [find?, under?, now, Entries.anyM_keys]
    have total : ∀ k ∈ es.map (·.1), ∃ b, (es'.map (·.1)).anyM (k.isFor h.equal) = .ok b := by
      refine List.forall_mem_map.mpr fun e member => ?_
      obtain ⟨r, found⟩ := keys.find?_total member
      exact ⟨r.isSome, by rw [asked e member, found]; rfl⟩
    obtain ⟨r, compared, all⟩ := allM_total total
    refine ⟨r, compared, fun same e member => ?_⟩
    have there := all same e.1 (List.mem_map_of_mem member)
    obtain ⟨r, found⟩ := keys.find?_total member
    rw [asked e member, found] at there
    cases r with
    | none => cases there
    | some v =>
        unfold find? at found
        exact ⟨v, by simp only [find, under, found]⟩

end SettledEntries

theorem pendingFields_total (found : ∀ e ∈ es, ∃ v, h.find e.1.value es' = .ok v)
    (leaves : ∀ e ∈ es, ∀ e' ∈ es', h.typeOf e.2 = h.typeOf e'.2 → h.isLeaf e.2 →
      ∃ r, h.leafEqual e.2 e'.2 = .ok r) :
    ∃ r, h.pendingFields es' es = .ok r ∧ ∀ pairs, r = some pairs →
      ∀ p ∈ pairs, p.1 ∈ es.map (·.2) ∧ p.2 ∈ es'.map (·.2) := by
  induction es with
  | nil => exact ⟨some [], rfl, by simp⟩
  | cons e rest ih =>
      obtain ⟨name, l⟩ := e
      obtain ⟨r, here⟩ := found _ List.mem_cons_self
      obtain ⟨k, there, _⟩ := under_ok here
      obtain ⟨others, passed, within⟩ := ih (fun e later => found e (List.mem_cons_of_mem _ later))
        fun e later => leaves e (List.mem_cons_of_mem _ later)
      have more (pairs : List (Value × Value)) (same : others = some pairs) (p : Value × Value)
          (inside : p ∈ pairs) : p.1 ∈ ((name, l) :: rest).map (·.2) ∧ p.2 ∈ es'.map (·.2) :=
        (within pairs same p inside).imp_left (List.mem_cons_of_mem _)
      have here : h.find name.value es' = .ok r := here
      simp only [pendingFields, here, passed]
      split
      · exact ⟨none, rfl, by simp⟩
      · rename_i types
        split
        · rename_i leaf
          obtain ⟨answer, equal⟩ := leaves (name, l) List.mem_cons_self (k, r) there
            (by simpa using types) leaf
          cases answer with
          | false => exact ⟨none, by simp only [equal], by simp⟩
          | true => exact ⟨others, by simp only [equal], more⟩
        · refine ⟨_, rfl, fun pairs same p inside => ?_⟩
          obtain ⟨ps, known, rfl⟩ := Option.map_eq_some_iff.mp same
          rcases List.mem_cons.mp inside with rfl | later
          · exact ⟨List.mem_cons_self, List.mem_map_of_mem there⟩
          · exact more ps known p later

variable (h a b) in
/-- Members to compare are told, and those of one class are within the two values. -/
def MembersWithin (pairs : Walk (Value × Value)) : Prop :=
  ∀ p ∈ pairs, ∃ u v, p = .ok (u, v) ∧ (h.typeOf u = h.typeOf v → h.Reaches a u ∧ h.Reaches b v)

namespace Answerable

theorem items_within (left : h.Reaches a x) (right : h.Reaches b y) {c d : Address}
    {xs ys : List Value} (shape : h.shape x = .sequence c xs) (shape' : h.shape y = .sequence d ys) :
    h.MembersWithin a b ((xs.zip ys).map .ok) := by
  refine List.forall_mem_map.mpr ?_
  rintro ⟨u, v⟩ paired
  have members := List.of_mem_zip paired
  exact ⟨u, v, rfl, fun _ =>
    ⟨left.tail (.item shape members.1), right.tail (.item shape' members.2)⟩⟩

theorem entries_within (ready : h.Answerable a b) (left : h.Reaches a x) (right : h.Reaches b y)
    {c d : Address} {kind kind' : MappingKind} (shape : h.shape x = .mapping c kind es)
    (shape' : h.shape y = .mapping d kind' es') :
    h.MembersWithin a b (h.entryPairs es' (h.walkEntries kind es)) := by
  have keys := ready.settled.entries (.inl left) (.inr right) es es' (.mapping shape)
    (.mapping shape')
  rw [keys.walkEntries keys.apart keys.left, entryPairs, List.map_map]
  refine List.forall_mem_map.mpr fun e member => ?_
  obtain ⟨r, found⟩ := keys.find?_total member
  refine ⟨e.2, r.getD .null, by simp [found, bind, Except.bind, pure, Except.pure], fun types => ?_⟩
  cases r with
  | none => exact absurd types (ready.present x c kind es (.inl left) shape e member)
  | some v =>
      obtain ⟨k, there, _⟩ := under?_ok found
      exact ⟨left.tail (.entry (.mapping shape) member),
        right.tail (.entry (.mapping shape') there)⟩

theorem fields_within (ready : h.Answerable a b) (left : h.Reaches a x) (right : h.Reaches b y)
    {c d : Address} (shape : h.shape x = .structured c) (shape' : h.shape y = .structured d) :
    ∃ r, h.fieldPairs c d = .ok r ∧
      ∀ pairs, r = some pairs → h.MembersWithin a b (pairs.map .ok) := by
  obtain ⟨es, own⟩ := ready.told x c (.inl left) shape
  obtain ⟨es', own'⟩ := ready.told y d (.inr right) shape'
  have keys := ready.settled.entries (.inl left) (.inr right) es es' (.fields shape own)
    (.fields shape' own')
  have below := left.entry (.fields shape own)
  have below' := right.entry (.fields shape' own')
  obtain ⟨same, compared, named⟩ := keys.membersEqual_total
  cases same with
  | false =>
      exact ⟨none, by simp [fieldPairs, own, own', compared, bind, Except.bind, pure, Except.pure],
        by simp⟩
  | true =>
      obtain ⟨r, passed, within⟩ := pendingFields_total (named rfl)
        fun e inside e' inside' types leaf =>
          (ready.leaves _ _ (below e inside) (below' e' inside') types leaf).imp fun _ => And.left
      refine ⟨r, by simp [fieldPairs, own, own', compared, passed, bind, Except.bind],
        fun pairs same => List.forall_mem_map.mpr ?_⟩
      rintro ⟨u, v⟩ member
      obtain ⟨from_left, from_right⟩ := within pairs same (u, v) member
      exact ⟨u, v, rfl, fun _ =>
        ⟨List.forall_mem_map.mpr below u from_left, List.forall_mem_map.mpr below' v from_right⟩⟩

/-- The members of two composites are told, or the composites are told apart. -/
theorem likePairs (ready : h.Answerable a b) (left : h.Reaches a x) (right : h.Reaches b y) :
    ∃ r, h.likePairs (h.shape x) (h.shape y) = .ok r ∧
      ∀ pairs, r = some pairs → h.MembersWithin a b pairs := by
  cases shape : h.shape x with
  | leaf => exact ⟨none, by cases h.shape y <;> rfl, by simp⟩
  | sequence c xs =>
      cases shape' : h.shape y with
      | leaf | mapping | structured => exact ⟨none, rfl, by simp⟩
      | sequence d ys =>
          refine ⟨_, rfl, fun pairs same => ?_⟩
          split at same <;> cases same
          exact items_within left right shape shape'
  | mapping c kind es =>
      cases shape' : h.shape y with
      | leaf | sequence | structured => exact ⟨none, rfl, by simp⟩
      | mapping d kind' es' =>
          refine ⟨_, rfl, fun pairs same => ?_⟩
          split at same <;> cases same
          exact ready.entries_within left right shape shape'
  | structured c =>
      cases shape' : h.shape y with
      | leaf | sequence | mapping => exact ⟨none, rfl, by simp⟩
      | structured d =>
          obtain ⟨r, told, within⟩ := ready.fields_within left right shape shape'
          refine ⟨_, by rw [Heap.likePairs, told]; rfl, fun pairs same => ?_⟩
          obtain ⟨ps, known, rfl⟩ := Option.map_eq_some_iff.mp same
          exact within ps known

end Answerable

/-! ## The comparison -/

/-- What was entered stays entered. -/
theorem likeWithin_kept (contained : h.Contained) {budget : Nat} {seen last : List Address}
    (enough : h.room seen < budget) (alike : h.likeWithin budget seen x y = .ok (some last)) :
    ∀ c ∈ seen, c ∈ last := by
  obtain ⟨t, _, _, result, _, justified⟩ :=
    decides_likeWithin (l := x) (r := y) contained enough
  exact (justified.covers last (result.trans alike)).subset

theorem likeEach_total {like : List Address → Value → Value → Likeness} {seen : List Address}
    {pairs : Walk (Value × Value)} (each : ∀ p ∈ pairs, ∃ u v, p = .ok (u, v) ∧
      ∀ seen', (∀ c ∈ seen, c ∈ seen') → ∃ r, like seen' u v = .ok r ∧
        ∀ last, r = some last → ∀ c ∈ seen', c ∈ last) :
    ∃ r, likeEach like seen pairs = .ok r := by
  induction pairs generalizing seen with
  | nil => exact ⟨some seen, rfl⟩
  | cons p rest ih =>
      obtain ⟨u, v, rfl, answers⟩ := each p List.mem_cons_self
      obtain ⟨r, answer, kept⟩ := answers seen fun _ => id
      cases r with
      | none => exact ⟨none, by simp only [likeEach, answer]⟩
      | some last =>
          simp only [likeEach, answer]
          apply ih
          intro p later
          obtain ⟨u, v, told, answers⟩ := each p (List.mem_cons_of_mem _ later)
          exact ⟨u, v, told, fun seen' more => answers seen' fun c old => more c (kept last rfl c old)⟩

theorem Answerable.likeWithin (ready : h.Answerable a b) (contained : h.Contained) {budget : Nat}
    {seen : List Address} (enough : h.room seen < budget)
    (sides : h.typeOf x = h.typeOf y → h.Reaches a x ∧ h.Reaches b y) :
    ∃ r, h.likeWithin budget seen x y = .ok r := by
  induction budget generalizing x y seen with
  | zero => exact absurd enough (Nat.not_lt_zero _)
  | succ budget ih =>
      simp only [Heap.likeWithin]
      split
      · exact ⟨none, rfl⟩
      · rename_i types
        have types : h.typeOf x = h.typeOf y := by simpa using types
        obtain ⟨left, right⟩ := sides types
        split
        · rename_i leaf
          obtain ⟨r, equal, _⟩ := ready.leaves x y left right types (isLeaf_iff.mpr leaf)
          exact ⟨if r then some seen else none, by simp only [equal, Except.map]⟩
        · rename_i c address
          split
          · exact ⟨none, rfl⟩
          · rename_i d address'
            split
            · exact ⟨_, rfl⟩
            · rename_i new
              have new : c ∉ seen := by
                have apart : c ∉ seen ∧ d ∉ seen := by simpa using new
                exact apart.1
              obtain ⟨r, compared, within⟩ := ready.likePairs left right
              cases r with
              | none => exact ⟨none, by simp only [compared]⟩
              | some pairs =>
                  simp only [compared]
                  apply likeEach_total
                  intro p inside
                  obtain ⟨u, v, told, below⟩ := within pairs rfl p inside
                  refine ⟨u, v, told, fun seen' more => ?_⟩
                  have less : h.room seen' < h.room seen :=
                    room_enter (contained.mem_compounds address) new
                      (fun c old => more c (mem_entered.mpr (.inl old)))
                      (more c (mem_entered.mpr (.inr (.inl rfl))))
                  have enough' : h.room seen' < budget := by omega
                  obtain ⟨r, answer⟩ := ih enough' below
                  exact ⟨r, answer, fun last same =>
                    likeWithin_kept contained enough' (same ▸ answer)⟩

/-- Values of which all is answered are found alike or not. -/
theorem Answerable.like (ready : h.Answerable a b) (contained : h.Contained) :
    ∃ r, h.like a b = .ok r := by
  obtain ⟨r, answer⟩ := ready.likeWithin contained (x := a) (y := b)
    (Nat.lt_succ_of_le (room_le (h := h) [])) fun _ => ⟨.refl, .refl⟩
  exact ⟨r.isSome, by simp only [Heap.like, likeFrom, answer, Except.map]⟩

end Assay.Heap
