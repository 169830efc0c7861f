import Assay.Proofs.Likeness.Separate
import Assay.Proofs.Likeness.Visits

/-! # A value is like itself

Both sides of a comparison enter their composites in one list, so a value that is compared with
itself has entered each of its composites twice when it comes by it again.  It is the very same
object then, which is alike.  So whatever counts as entered before, nothing is found different, as
long as leaves equal themselves, fields are told and each key is found where it lies.

A key that has changed since it was entered is not found, and what lies under it reads as null.
-/

namespace Assay.Heap

variable {h : Heap} {v : Value} {es : List (Key × Value)} {seen : List Address}

/-- Each value opposite itself. -/
def doubled (xs : List Value) : Walk (Value × Value) := xs.map fun x => .ok (x, x)

variable (h) in
/-- What a comparison of a value with itself asks of the value. -/
structure Tellable (v : Value) : Prop where
  leaf : h.isLeaf v → h.leafEqual v v = .ok true
  fields : ∀ a, h.shape v = .structured a → ∃ es, h.fields a = .ok es
  keys : ∀ es, h.Files v es → h.KeysFound (es.map (·.1))

/-! ## Entries opposite themselves -/

namespace KeysFound

theorem entryPairs (found : h.KeysFound (es.map (·.1))) (kind : MappingKind) :
    h.entryPairs es (h.walkEntries kind es) = doubled (es.map (·.2)) := by
  rw [found.walkEntries, Heap.entryPairs, doubled, List.map_map, List.map_map]
  apply List.map_congr_left
  intro e member
  simp [found.entry member, bind, Except.bind, pure, Except.pure]

theorem membersEqual {keys : List Key} (found : h.KeysFound keys) :
    membersEqual h.equal keys keys = .ok true := by
  rw [Heap.membersEqual, if_neg (by simp)]
  apply allM_true
  intro k member
  obtain ⟨i, here⟩ := List.getElem?_of_mem member
  have own := found.place here
  have now : h.key k.value = .ok k := found.current member
  simp only [find?, under?, now] at own
  have asked := Entries.anyM_keys (k.isFor h.equal) keys.zipIdx
  rwa [List.zipIdx_map_fst, own] at asked

theorem pendingFields (found : h.KeysFound (es.map (·.1)))
    (leaves : ∀ e ∈ es, h.isLeaf e.2 → h.leafEqual e.2 e.2 = .ok true) :
    h.pendingFields es es =
      .ok (some (((es.map (·.2)).filter fun x => !h.isLeaf x).map fun x => (x, x))) := by
  let m := es.map fun e => (e, e)
  have values : matchedValues m = es.map fun e => (e.2, e.2) := by
    rw [matchedValues, List.map_map]
    rfl
  have partners : ∀ q ∈ m, h.find? q.1.1.value es = .ok (some q.2.2) :=
    List.forall_mem_map.mpr fun e member => found.entry member
  have own := pendingFields_matched partners
    (by rw [values]; exact List.forall_mem_map.mpr fun e _ => rfl)
    (by rw [values]; exact List.forall_mem_map.mpr leaves)
  rw [values, List.map_map] at own
  simpa [Function.comp_def, List.filter_map] using own

end KeysFound

/-- The members of a composite are compared each with itself. -/
theorem likePairs_self {a : Address} (address : (h.shape v).address? = some a)
    (tellable : h.Tellable v) (members : ∀ u, h.Holds v u → h.Tellable u) :
    ∃ xs, h.likePairs (h.shape v) (h.shape v) = .ok (some (doubled xs)) ∧
      ∀ x ∈ xs, h.Holds v x := by
  cases shape : h.shape v with
  | leaf => simp [shape, Shape.address?] at address
  | sequence c xs =>
      refine ⟨xs, ?_, fun x member => .item shape member⟩
      simp [likePairs, doubled, List.zip, List.zipWith_self]
  | mapping c kind es =>
      refine ⟨es.map (·.2), ?_, List.forall_mem_map.mpr fun e member => .entry (.mapping shape) member⟩
      simp [likePairs, (tellable.keys es (.mapping shape)).entryPairs]
  | structured c =>
      obtain ⟨es, told⟩ := tellable.fields c shape
      have found := tellable.keys es (.fields shape told)
      have leaves : ∀ e ∈ es, h.isLeaf e.2 → h.leafEqual e.2 e.2 = .ok true :=
        fun e member => (members e.2 (.entry (.fields shape told) member)).leaf
      refine ⟨(es.map (·.2)).filter fun x => !h.isLeaf x, ?_, ?_⟩
      · simp [likePairs, fieldPairs, told, found.membersEqual, found.pendingFields leaves, bind,
          Except.bind, Except.map, doubled]
      · intro x member
        obtain ⟨e, inside, rfl⟩ := List.mem_map.mp (List.mem_filter.mp member).1
        exact .entry (.fields shape told) inside

/-! ## The comparison -/

theorem likeEach_doubled {like : List Address → Value → Value → Likeness} {xs : List Value}
    (alike : ∀ x ∈ xs, ∀ seen', (∀ c ∈ seen, c ∈ seen') →
      ∃ last, like seen' x x = .ok (some last) ∧ ∀ c ∈ seen', c ∈ last) :
    ∃ last, likeEach like seen (doubled xs) = .ok (some last) ∧ ∀ c ∈ seen, c ∈ last := by
  induction xs generalizing seen with
  | nil => exact ⟨seen, rfl, fun _ => id⟩
  | cons x rest ih =>
      obtain ⟨middle, first, kept⟩ := alike x List.mem_cons_self seen fun _ => id
      have rest_alike : ∀ y ∈ rest, ∀ seen', (∀ c ∈ middle, c ∈ seen') →
          ∃ last, like seen' y y = .ok (some last) ∧ ∀ c ∈ seen', c ∈ last :=
        fun y later seen' more =>
          alike y (List.mem_cons_of_mem _ later) seen' fun c old => more c (kept c old)
      obtain ⟨last, others, kept'⟩ := ih rest_alike
      refine ⟨last, ?_, fun c old => kept' c (kept c old)⟩
      simpa only [doubled, List.map_cons, likeEach, first] using others

/-- Whatever has been entered before, a value is found like itself. -/
theorem likeWithin_refl (contained : h.Contained) {budget : Nat}
    (tellable : ∀ u, h.Reaches v u → h.Tellable u) (enough : h.room seen < budget) :
    ∃ last, h.likeWithin budget seen v v = .ok (some last) ∧ ∀ c ∈ seen, c ∈ last := by
  induction budget generalizing v seen with
  | zero => exact absurd enough (Nat.not_lt_zero _)
  | succ budget ih =>
      simp only [likeWithin, bne_self_eq_false, Bool.false_eq_true, if_false]
      cases address : (h.shape v).address? with
      | none =>
          have equal := (tellable v .refl).leaf (isLeaf_iff.mpr address)
          exact ⟨seen, by simp [equal, Except.map], fun _ => id⟩
      | some a =>
          simp only [Bool.or_self, beq_self_eq_true, if_true]
          split
          · exact ⟨seen, rfl, fun _ => id⟩
          · rename_i new
            have new : a ∉ seen := by simpa using new
            obtain ⟨xs, compared, holds⟩ := likePairs_self address (tellable v .refl)
              fun u held => tellable u (.single held)
            simp only [compared]
            have members : ∀ x ∈ xs, ∀ seen', (∀ c ∈ enterComposite (enterComposite seen a) a,
                c ∈ seen') → ∃ last, h.likeWithin budget seen' x x = .ok (some last) ∧
                  ∀ c ∈ seen', c ∈ last := by
              intro x member seen' more
              apply ih fun u reached => tellable u (reached.head (holds x member))
              have less : h.room seen' < h.room seen :=
                room_enter (contained.mem_compounds address) new
                  (fun c old => more c (mem_entered.mpr (.inl old)))
                  (more a (mem_entered.mpr (.inr (.inl rfl))))
              omega
            obtain ⟨last, alike, kept⟩ := likeEach_doubled members
            exact ⟨last, alike, fun c old => kept c (mem_entered.mpr (.inl old))⟩

/-- Every value on a finite heap is like itself, whatever cycles and sharing there are, if the leaves
    in it equal themselves, the fields of its objects are told, and each key and each name of a field
    is found where it lies. -/
theorem like_refl (contained : h.Contained)
    (leaves : ∀ u, h.Reaches v u → h.isLeaf u → h.leafEqual u u = .ok true)
    (fields : ∀ u a, h.Reaches v u → h.shape u = .structured a → ∃ es, h.fields a = .ok es)
    (keys : ∀ u es, h.Reaches v u → h.Files u es → h.KeysFound (es.map (·.1))) :
    h.like v v = .ok true := by
  have tellable (u : Value) (reached : h.Reaches v u) : h.Tellable u :=
    ⟨leaves u reached, fun a => fields u a reached, fun es => keys u es reached⟩
  obtain ⟨last, alike, _⟩ := likeWithin_refl contained tellable
    (Nat.lt_succ_of_le (room_le (h := h) []))
  simp only [like, likeFrom, alike, Except.map, Option.isSome_some]

/-- An object that holds itself and an ordered dictionary, which is in the list that it keeps under
    both of its keys. -/
def knots : Heap where
  classes := Standard.classes Sample.classes
  objects := #[{ cls := "Node", attrs := [("next", .ref 0), ("links", .ref 1)] },
    { cls := "OrderedDict",
      body := .mapping .ordered [(.text "k", .ref 2), (.text "l", .ref 2)] },
    { cls := "list", body := .sequence .list [.ref 1, .int 1] }]

/-- What is in the object. -/
def knotsValues : List Value := [.ref 0, .ref 1, .ref 2, .int 1]

theorem knots_reaches {u : Value} (reached : knots.Reaches (.ref 0) u) : u ∈ knotsValues := by
  have closed : ∀ w ∈ knotsValues, ∀ x ∈ knots.branches w, x ∈ knotsValues := by decide +kernel
  exact reached.among (by simp [knotsValues]) closed

/-- The object is like itself. -/
theorem like_refl_knots : knots.Contained ∧ knots.like (.ref 0) (.ref 0) = .ok true := by
  have contained : knots.Contained := contained_of_bare rfl
  have leaves : ∀ u ∈ knotsValues, knots.isLeaf u → knots.leafEqual u u = .ok true := by
    decide +kernel
  refine ⟨contained, like_refl contained ?_ ?_ ?_⟩
  · exact fun u reached => leaves u (knots_reaches reached)
  · intro u a reached shape
    have inside := knots_reaches reached
    simp only [knotsValues, List.mem_cons, List.not_mem_nil, or_false] at inside
    rcases inside with rfl | rfl | rfl | rfl <;> cases shape
    exact ⟨_, rfl⟩
  · intro u es reached files
    have inside := knots_reaches reached
    simp only [knotsValues, List.mem_cons, List.not_mem_nil, or_false] at inside
    rcases inside with rfl | rfl | rfl | rfl <;> rcases files with shape | ⟨shape, told⟩ <;>
      cases shape
    · cases told
      decide +kernel
    · decide +kernel

/-- A dictionary with a point for its key, which has changed since it was entered. -/
def mislaid : Heap where
  classes := Standard.classes Sample.classes
  objects := #[{ cls := "FrozenPoint", attrs := [("x", .int 5), ("y", .int 2)] },
    { cls := "dict",
      body := .mapping .dict [(⟨.ref 0, .ofTuple [.ofInt 1, .ofInt 2]⟩, .int 1)] }]

/-- A dictionary in which a key is not found again is unlike itself. -/
theorem unlike_itself : ¬ ∀ (h : Heap) (v : Value), h.Contained →
    (∀ u, h.Reaches v u → h.isLeaf u → h.leafEqual u u = .ok true) →
    (∀ u a, h.Reaches v u → h.shape u = .structured a → ∃ es, h.fields a = .ok es) →
    h.like v v = .ok true := by
  intro claim
  have reached {u : Value} (reached : mislaid.Reaches (.ref 1) u) : u ∈ [Value.ref 1, .int 1] :=
    reached.among (by simp) (by decide +kernel)
  have alike := claim mislaid (.ref 1) (contained_of_bare rfl) ?_ ?_
  · have unlike : mislaid.like (.ref 1) (.ref 1) = .ok false := rfl
    cases alike.symm.trans unlike
  · intro u inside
    have leaves : ∀ u ∈ [Value.ref 1, .int 1], mislaid.isLeaf u →
        mislaid.leafEqual u u = .ok true := by
      decide +kernel
    exact leaves u (reached inside)
  · intro u a inside shape
    have kinds : ∀ u ∈ [Value.ref 1, .int 1], mislaid.kind u ≠ .structured := by decide +kernel
    exact absurd (by simp [kind, shape, Shape.kind]) (kinds u (reached inside))

end Assay.Heap
