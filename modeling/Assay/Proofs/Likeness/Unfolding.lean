import Assay.Likeness
import Assay.Proofs.Likeness.Lookup
import Assay.Sample.Shapes
import Mathlib.Logic.Relation

/-! # Likeness and unfoldings

Values unfold to trees, infinite ones where they hold themselves.  Two values have the same
unfolding if there is a relation between them that only relates values of one class whose members
it relates in turn.

A comparison passes by pairs of values in an order in which each answer depends on the composites
entered before.  Still, each answer by itself says that the members of a pair were found alike at
some time, or that they are one object, so that all pairs of values that were ever found alike make
up such a relation.
-/

namespace Assay.Heap

variable (h : Heap)

/-! ## Members -/

/-- Entries that a value keeps under keys: those of a mapping, or its fields. -/
inductive Files (v : Value) : List (Key × Value) → Prop where
  | mapping {a kind es} : h.shape v = .mapping a kind es → Files v es
  | fields {a es} : h.shape v = .structured a → h.fields a = .ok es → Files v es

/-- One value is a member of another. -/
inductive Holds (v : Value) : Value → Prop where
  | item {a xs x} : h.shape v = .sequence a xs → x ∈ xs → Holds v x
  | entry {es e} : h.Files v es → e ∈ es → Holds v e.2

/-- One value is found on a way down from another. -/
def Reaches : Value → Value → Prop := Relation.ReflTransGen h.Holds

/-- A key that something within a value keeps an entry under. -/
def HasKey (v k : Value) : Prop :=
  ∃ x es e, h.Reaches v x ∧ h.Files x es ∧ e ∈ es ∧ e.1.value = k

/-! ## Unfoldings -/

/-- Two lists have the same keys, with related values under them. -/
def SameEntries (R : Value → Value → Prop) (es es' : List (Key × Value)) : Prop :=
  (∀ e ∈ es, ∃ e' ∈ es', h.sameKey e.1.value e'.1.value ∧ R e.2 e'.2) ∧
    ∀ e' ∈ es', ∃ e ∈ es, h.sameKey e.1.value e'.1.value ∧ R e.2 e'.2

/-- Two values are the same up to their members, which are related. -/
inductive Unfolds (R : Value → Value → Prop) : Value → Value → Prop where
  | same {x} : Unfolds R x x
  | leaf {x y} : h.typeOf x = h.typeOf y → h.isLeaf x → h.leafEqual x y = .ok true →
      Unfolds R x y
  | sequence {x y a b xs ys} : h.typeOf x = h.typeOf y → h.shape x = .sequence a xs →
      h.shape y = .sequence b ys → List.Forall₂ R xs ys → Unfolds R x y
  | mapping {x y a b kind kind' es es'} : h.typeOf x = h.typeOf y →
      h.shape x = .mapping a kind es → h.shape y = .mapping b kind' es' →
      h.SameEntries R es es' → Unfolds R x y
  | structured {x y a b es es'} : h.typeOf x = h.typeOf y → h.shape x = .structured a →
      h.shape y = .structured b → h.fields a = .ok es → h.fields b = .ok es' →
      h.SameEntries R es es' → Unfolds R x y

/-- Two composites of one kind have members that are related. -/
inductive SameMembers (R : Value → Value → Prop) (x y : Value) : Prop where
  | sequence {a b xs ys} : h.shape x = .sequence a xs → h.shape y = .sequence b ys →
      List.Forall₂ R xs ys → SameMembers R x y
  | mapping {a b kind kind' es es'} : h.shape x = .mapping a kind es →
      h.shape y = .mapping b kind' es' → h.SameEntries R es es' → SameMembers R x y
  | structured {a b es es'} : h.shape x = .structured a → h.shape y = .structured b →
      h.fields a = .ok es → h.fields b = .ok es' → h.SameEntries R es es' → SameMembers R x y

/-- Two values unfold to the same structure. -/
def SameUnfolding (a b : Value) : Prop :=
  ∃ R : Value → Value → Prop, (∀ x y, R x y → h.Unfolds R x y) ∧ R a b

/-! ## Answers of a comparison -/

/-- The values were found alike, whatever had been entered before. -/
def FoundAlike (x y : Value) : Prop :=
  ∃ budget seen seen', h.likeWithin budget seen x y = .ok (some seen')

variable {h}

theorem likeEach_ok {like : List Address → Value → Value → Likeness} {seen seen' : List Address}
    {pairs : Walk (Value × Value)} (alike : likeEach like seen pairs = .ok (some seen')) :
    ∀ p ∈ pairs, ∃ x y s s', p = .ok (x, y) ∧ like s x y = .ok (some s') := by
  induction pairs generalizing seen with
  | nil => simp
  | cons p rest ih =>
      cases p with
      | error e => cases alike
      | ok pair =>
          obtain ⟨x, y⟩ := pair
          simp only [likeEach] at alike
          split at alike
          · rename_i s first
            intro q member
            rcases List.mem_cons.mp member with rfl | later
            · exact ⟨x, y, seen, s, rfl, first⟩
            · exact ih alike q later
          · rename_i differs
            exact absurd alike (differs _)

/-- Only references have an address. -/
theorem eq_ref_of_address {v : Value} {a : Address} (lives : (h.shape v).address? = some a) :
    v = .ref a := by
  cases v with
  | ref b =>
      have own : (h.shape (.ref b)).address? = none ∨ (h.shape (.ref b)).address? = some b := by
        cases body : (h.object b).body with
        | sequence | mapping | error => simp [shape, body, Shape.address?]
        | members | octets => simp [shape, body, Shape.address?]
        | plain =>
            by_cases source : h.hasFieldSource (h.object b).cls
            · simp [shape, body, source, Shape.address?]
            · simp [shape, body, source, Shape.address?]
      rcases own with none | here
      · cases none.symm.trans lives
      · cases here.symm.trans lives
        rfl
  | _ => simp [shape, Shape.address?] at lives

theorem isLeaf_iff {v : Value} : h.isLeaf v ↔ (h.shape v).address? = none := by
  unfold isLeaf kind
  cases h.shape v <;> simp [Shape.kind, Shape.address?]

variable (h) in
/-- How one step of a comparison finds two values alike. -/
inductive AlikeStep (budget : Nat) (seen : List Address) (x y : Value) : List Address → Prop where
  | leaf : h.typeOf x = h.typeOf y → h.isLeaf x → h.leafEqual x y = .ok true →
      AlikeStep budget seen x y seen
  | again {a} : h.typeOf x = h.typeOf y → (h.shape x).address? = some a →
      (h.shape y).address? = some a → a ∈ seen → AlikeStep budget seen x y seen
  | members {a b pairs last} : h.typeOf x = h.typeOf y → (h.shape x).address? = some a →
      (h.shape y).address? = some b → h.likePairs (h.shape x) (h.shape y) = .ok (some pairs) →
      likeEach (h.likeWithin budget) (enterComposite (enterComposite seen a) b) pairs =
        .ok (some last) → AlikeStep budget seen x y last

theorem alikeStep {budget : Nat} {seen last : List Address} {x y : Value}
    (alike : h.likeWithin (budget + 1) seen x y = .ok (some last)) :
    h.AlikeStep budget seen x y last := by
  simp only [likeWithin] at alike
  split at alike
  · cases alike
  · rename_i types
    have types : h.typeOf x = h.typeOf y := by simpa using types
    split at alike
    · rename_i leaf
      cases equal : h.leafEqual x y with
      | error e => simp [equal, Except.map] at alike
      | ok b =>
          cases b with
          | false => simp [equal, Except.map] at alike
          | true =>
              obtain rfl : seen = last := by simpa [equal, Except.map] using alike
              exact .leaf types (isLeaf_iff.mpr leaf) equal
    · rename_i a left
      split at alike
      · cases alike
      · rename_i b right
        split at alike
        · rename_i met
          simp only [Except.ok.injEq] at alike
          split at alike
          · rename_i same
            obtain rfl : a = b := by simpa using same
            cases alike
            exact .again types left right (by simpa using met)
          · cases alike
        · split at alike
          · cases alike
          · cases alike
          · rename_i pairs compared
            exact .members types left right compared alike

/-- What a single answer says: values that were found alike are one object, or equal leaves of one
    class, or composites of one class whose members were found alike. -/
theorem FoundAlike.cases {x y : Value} (alike : h.FoundAlike x y) :
    x = y ∨ h.typeOf x = h.typeOf y ∧ (h.isLeaf x ∧ h.leafEqual x y = .ok true ∨
      ∃ pairs, h.likePairs (h.shape x) (h.shape y) = .ok (some pairs) ∧
        ∀ p ∈ pairs, ∃ x' y', p = .ok (x', y') ∧ h.FoundAlike x' y') := by
  obtain ⟨budget, seen, seen', answer⟩ := alike
  cases budget with
  | zero => cases answer
  | succ budget =>
      cases alikeStep answer with
      | leaf types leaf equal => exact .inr ⟨types, .inl ⟨leaf, equal⟩⟩
      | again _ left right _ =>
          exact .inl ((eq_ref_of_address left).trans (eq_ref_of_address right).symm)
      | members types _ _ compared each =>
          refine .inr ⟨types, .inr ⟨_, compared, fun p member => ?_⟩⟩
          obtain ⟨x', y', s, s', ok, found⟩ := likeEach_ok each p member
          exact ⟨x', y', ok, budget, s, s', found⟩

theorem FoundAlike.typeOf_eq {x y : Value} (alike : h.FoundAlike x y) :
    h.typeOf x = h.typeOf y := by
  rcases alike.cases with same | ⟨types, _⟩
  · rw [same]
  · exact types

/-- Equal leaves are found alike by a comparison of their own. -/
theorem foundAlike_leaf {x y : Value} (types : h.typeOf x = h.typeOf y) (leaf : h.isLeaf x)
    (equal : h.leafEqual x y = .ok true) : h.FoundAlike x y := by
  refine ⟨1, [], [], ?_⟩
  simp [likeWithin, types, isLeaf_iff.mp leaf, equal, Except.map]

/-! ## Entries on both sides -/

variable {a b : Value}

variable (h a b) in
/-- To be the same is symmetric and transitive for the keys within two values. -/
structure KeysEquivalent : Prop where
  symm : ∀ k k', h.HasKey a k ∨ h.HasKey b k → h.HasKey a k' ∨ h.HasKey b k' →
    h.sameKey k k' → h.sameKey k' k
  trans : ∀ k k' k'', h.HasKey a k ∨ h.HasKey b k → h.HasKey a k' ∨ h.HasKey b k' →
    h.HasKey a k'' ∨ h.HasKey b k'' → h.sameKey k k' → h.sameKey k' k'' → h.sameKey k k''

/-- Where keys on the left are told apart and there are as many on the right, it is enough that
    every key on the left is found on the right. -/
theorem sameEntries_of_found (keys : h.KeysEquivalent a b) {R : Value → Value → Prop}
    {es es' : List (Key × Value)} (within : ∀ e ∈ es, h.HasKey a e.1.value)
    (within' : ∀ e ∈ es', h.HasKey b e.1.value) (apart : h.KeysApart (es.map (·.1)))
    (size : es.length = es'.length)
    (found : ∀ e ∈ es, ∃ e' ∈ es', h.sameKey e'.1.value e.1.value ∧ R e.2 e'.2) :
    h.SameEntries R es es' := by
  have matched : ∀ e ∈ es, ∃ e' ∈ es', h.sameKey e.1.value e'.1.value ∧ R e.2 e'.2 := by
    intro e member
    obtain ⟨e', member', same, related⟩ := found e member
    exact ⟨e', member',
      keys.symm _ _ (.inr (within' e' member')) (.inl (within e member)) same, related⟩
  refine ⟨matched, fun e' member' => matched_back size matched ?_ member'⟩
  intro i j x x' y at_i at_j member same same'
  have inside := within x (List.mem_of_getElem? at_i)
  have inside' := within x' (List.mem_of_getElem? at_j)
  have back := keys.symm _ _ (.inl inside') (.inr (within' y member)) same'.1
  exact apart i j x.1 x'.1 (by simp [at_i]) (by simp [at_j])
    (keys.trans _ _ _ (.inl inside) (.inr (within' y member)) (.inl inside') same.1 back)

/-- A mapping that was found alike has every entry found on the right, null apart. -/
theorem entryPairs_found {kind : MappingKind} {es es' : List (Key × Value)}
    (apart : h.KeysApart (es.map (·.1)))
    (alike : ∀ p ∈ h.entryPairs es' (h.walkEntries kind es),
      ∃ x y, p = .ok (x, y) ∧ h.FoundAlike x y)
    {e : Key × Value} (member : e ∈ es) (present : h.typeOf e.2 ≠ h.typeOf .null) :
    ∃ e' ∈ es', h.sameKey e'.1.value e.1.value ∧ h.FoundAlike e.2 e'.2 := by
  have whole : ∀ p ∈ h.walkEntries kind es, ∃ x, p = .ok x := by
    intro p inside
    obtain ⟨x, y, ok, _⟩ := alike _ (List.mem_map_of_mem inside)
    cases p with
    | error f => cases ok
    | ok pair => exact ⟨pair, rfl⟩
  obtain ⟨x, y, ok, found⟩ := alike _ (List.mem_map_of_mem (apart.mem_walkEntries whole member))
  cases lookup : h.find? e.1.value es' with
  | error f => simp [lookup, bind, Except.bind] at ok
  | ok value =>
      simp only [lookup, bind, Except.bind, pure, Except.pure, Except.ok.injEq, Prod.mk.injEq] at ok
      obtain ⟨rfl, rfl⟩ := ok
      -- What is missing reads as null, which is like nothing that is present.
      cases value with
      | none => exact absurd found.typeOf_eq present
      | some v =>
          obtain ⟨k, inside, same⟩ := under?_ok lookup
          exact ⟨(k, v), inside, same, found⟩

/-- Every field on the left that was passed has its like on the right. -/
theorem pendingFields_found {es es' : List (Key × Value)} {pairs : List (Value × Value)}
    (passed : h.pendingFields es' es = .ok (some pairs))
    (alike : ∀ p ∈ pairs, h.FoundAlike p.1 p.2) {e : Key × Value} (member : e ∈ es) :
    ∃ e' ∈ es', h.sameKey e'.1.value e.1.value ∧ h.FoundAlike e.2 e'.2 := by
  induction es generalizing pairs with
  | nil => cases member
  | cons field rest ih =>
      obtain ⟨name, l⟩ := field
      simp only [pendingFields] at passed
      split at passed
      · cases passed
      · rename_i r found
        obtain ⟨k, inside, same⟩ := under_ok found
        split at passed
        · cases passed
        · rename_i types
          have types : h.typeOf l = h.typeOf r := by simpa using types
          split at passed
          · rename_i leaf
            split at passed
            · cases passed
            · cases passed
            · rename_i equal
              rcases List.mem_cons.mp member with rfl | later
              · exact ⟨(k, r), inside, same, foundAlike_leaf types leaf equal⟩
              · exact ih passed alike later
          · cases others : h.pendingFields es' rest with
            | error f => simp [others, Except.map] at passed
            | ok left =>
                cases left with
                | none => simp [others, Except.map] at passed
                | some ps =>
                    simp only [others, Except.map, Option.map_some, Except.ok.injEq,
                      Option.some.injEq] at passed
                    subst passed
                    rcases List.mem_cons.mp member with rfl | later
                    · exact ⟨(k, r), inside, same, alike (l, r) (by simp)⟩
                    · exact ih others (fun p among => alike p (by simp [among])) later

theorem membersEqual_length {xs ys : List Key} (equal : membersEqual h.equal xs ys = .ok true) :
    xs.length = ys.length := by
  unfold membersEqual at equal
  split at equal
  · cases equal
  · rename_i size
    simpa using size

theorem fieldPairs_ok {c d : Address} {pairs : List (Value × Value)}
    (compared : h.fieldPairs c d = .ok (some pairs)) : ∃ es es', h.fields c = .ok es ∧
      h.fields d = .ok es' ∧ es.length = es'.length ∧
      h.pendingFields es' es = .ok (some pairs) := by
  unfold fieldPairs at compared
  cases left : h.fields c with
  | error f => simp [left, bind, Except.bind] at compared
  | ok es =>
      cases right : h.fields d with
      | error f => simp [left, right, bind, Except.bind] at compared
      | ok es' =>
          cases names : membersEqual h.equal (es.map (·.1)) (es'.map (·.1)) with
          | error f => simp [left, right, names, bind, Except.bind] at compared
          | ok same =>
              cases same with
              | false => simp [left, right, names, bind, Except.bind, pure, Except.pure] at compared
              | true =>
                  simp only [left, right, names, bind, Except.bind, if_true] at compared
                  exact ⟨es, es', rfl, rfl, by simpa using membersEqual_length names, compared⟩

/-! ## The relation that a comparison finds -/

variable (h a b) in
/-- Values within the two sides that were found alike. -/
def Related (x y : Value) : Prop := h.Reaches a x ∧ h.Reaches b y ∧ h.FoundAlike x y

theorem Reaches.entry {x : Value} {es : List (Key × Value)} (reached : h.Reaches a x)
    (files : h.Files x es) : ∀ e ∈ es, h.Reaches a e.2 := fun _ member =>
  reached.tail (.entry files member)

theorem Reaches.key {x : Value} {es : List (Key × Value)} (reached : h.Reaches a x)
    (files : h.Files x es) : ∀ e ∈ es, h.HasKey a e.1.value := fun e member =>
  ⟨x, es, e, reached, files, member, rfl⟩

/-- Entries that were found alike are the same up to values that were found alike. -/
theorem Related.sameEntries (keys : h.KeysEquivalent a b)
    (apart : ∀ x es, h.Reaches a x → h.Files x es → h.KeysApart (es.map (·.1)))
    {x y : Value} (related : h.Related a b x y) {es es' : List (Key × Value)}
    (files : h.Files x es) (files' : h.Files y es') (size : es.length = es'.length)
    (found : ∀ e ∈ es, ∃ e' ∈ es', h.sameKey e'.1.value e.1.value ∧ h.FoundAlike e.2 e'.2) :
    h.SameEntries (h.Related a b) es es' := by
  obtain ⟨left, right, _⟩ := related
  refine sameEntries_of_found keys (left.key files) (right.key files') (apart x es left files)
    size ?_
  intro e member
  obtain ⟨e', member', same, alike⟩ := found e member
  exact ⟨e', member', same, left.entry files e member, right.entry files' e' member', alike⟩

theorem SameMembers.unfolds {R : Value → Value → Prop} {x y : Value}
    (types : h.typeOf x = h.typeOf y) (same : h.SameMembers R x y) : h.Unfolds R x y := by
  cases same with
  | sequence shape shape' same => exact .sequence types shape shape' same
  | mapping shape shape' same => exact .mapping types shape shape' same
  | structured shape shape' own own' same => exact .structured types shape shape' own own' same

/-- Composites whose members were found alike have the same members. -/
theorem Related.sameMembers (keys : h.KeysEquivalent a b)
    (apart : ∀ x es, h.Reaches a x → h.Files x es → h.KeysApart (es.map (·.1)))
    (present : ∀ x c kind es, h.Reaches a x → h.shape x = .mapping c kind es →
      ∀ e ∈ es, h.typeOf e.2 ≠ h.typeOf .null)
    {x y : Value} (related : h.Related a b x y) {pairs : Walk (Value × Value)}
    (compared : h.likePairs (h.shape x) (h.shape y) = .ok (some pairs))
    (members : ∀ p ∈ pairs, ∃ x' y', p = .ok (x', y') ∧ h.FoundAlike x' y') :
    h.SameMembers (h.Related a b) x y := by
  obtain ⟨left, right, alike⟩ := related
  cases shape : h.shape x with
  | leaf => simp [shape, likePairs] at compared
  | sequence c xs =>
      cases shape' : h.shape y with
      | sequence d ys =>
          simp only [shape, shape', likePairs, Except.ok.injEq] at compared
          split at compared
          · rename_i size
            cases compared
            refine .sequence shape shape' (List.forall₂_iff_zip.mpr ⟨by simpa using size, ?_⟩)
            intro x' y' paired
            obtain ⟨_, _, ok, found⟩ := members _ (List.mem_map_of_mem paired)
            cases ok
            exact ⟨left.tail (.item shape (List.of_mem_zip paired).1),
              right.tail (.item shape' (List.of_mem_zip paired).2), found⟩
          · cases compared
      | leaf | mapping | structured => simp [shape, shape', likePairs] at compared
  | mapping c kind es =>
      cases shape' : h.shape y with
      | mapping d kind' es' =>
          simp only [shape, shape', likePairs, Except.ok.injEq] at compared
          split at compared
          · rename_i size
            cases compared
            refine .mapping shape shape' (sameEntries keys apart ⟨left, right, alike⟩
              (.mapping shape) (.mapping shape') (by simpa using size) fun e member => ?_)
            exact entryPairs_found (apart x es left (.mapping shape)) members member
              (present x c kind es left shape e member)
          · cases compared
      | leaf | sequence | structured => simp [shape, shape', likePairs] at compared
  | structured c =>
      cases shape' : h.shape y with
      | structured d =>
          cases fields : h.fieldPairs c d with
          | error f => simp [shape, shape', likePairs, fields, Except.map] at compared
          | ok found =>
              cases found with
              | none => simp [shape, shape', likePairs, fields, Except.map] at compared
              | some ps =>
                  simp only [shape, shape', likePairs, fields, Except.map, Option.map_some,
                    Except.ok.injEq, Option.some.injEq] at compared
                  subst compared
                  obtain ⟨es, es', own, own', size, passed⟩ := fieldPairs_ok fields
                  refine .structured shape shape' own own' (sameEntries keys apart
                    ⟨left, right, alike⟩ (.fields shape own) (.fields shape' own') size
                    fun e member => pendingFields_found passed ?_ member)
                  intro p among
                  obtain ⟨_, _, ok, found⟩ := members _ (List.mem_map_of_mem among)
                  cases ok
                  exact found
      | leaf | sequence | mapping => simp [shape, shape', likePairs] at compared

/-- What was found alike is the same up to members that were found alike. -/
theorem Related.unfolds (keys : h.KeysEquivalent a b)
    (apart : ∀ x es, h.Reaches a x → h.Files x es → h.KeysApart (es.map (·.1)))
    (present : ∀ x c kind es, h.Reaches a x → h.shape x = .mapping c kind es →
      ∀ e ∈ es, h.typeOf e.2 ≠ h.typeOf .null)
    {x y : Value} (related : h.Related a b x y) : h.Unfolds (h.Related a b) x y := by
  rcases related.2.2.cases with rfl | ⟨types, ⟨leaf, equal⟩ | ⟨pairs, compared, members⟩⟩
  · exact .same
  · exact .leaf types leaf equal
  · exact (related.sameMembers keys apart present compared members).unfolds types

/-- Values that are alike have the same unfolding, where no mapping on the left has null for a
    value and the keys of each mapping and the names of each listing of fields are told apart. -/
theorem like_sameUnfolding (keys : h.KeysEquivalent a b)
    (apart : ∀ x es, h.Reaches a x → h.Files x es → h.KeysApart (es.map (·.1)))
    (present : ∀ x c kind es, h.Reaches a x → h.shape x = .mapping c kind es →
      ∀ e ∈ es, h.typeOf e.2 ≠ h.typeOf .null)
    (alike : h.like a b = .ok true) : h.SameUnfolding a b := by
  refine ⟨h.Related a b, fun x y related => related.unfolds keys apart present,
    .refl, .refl, h.objects.size + 1, [], ?_⟩
  unfold like likeFrom at alike
  cases answer : h.likeWithin (h.objects.size + 1) [] a b with
  | error f => simp [answer, Except.map] at alike
  | ok found =>
      cases found with
      | none => simp [answer, Except.map] at alike
      | some seen => exact ⟨seen, rfl⟩

/-! ## Mappings of numbers -/

section Flat

variable {c d : Address} {kind kind' : MappingKind} {es es' : List (Key × Value)}

theorem files_flat (shape : h.shape a = .mapping c kind es) (files : h.Files a es') : es' = es := by
  cases files with
  | mapping own =>
      cases shape.symm.trans own
      rfl
  | fields own _ => cases shape.symm.trans own

/-- A mapping of numbers reaches nothing but itself and the numbers. -/
theorem reaches_flat (shape : h.shape a = .mapping c kind es) (flat : ∀ e ∈ es, ∃ n, e.2 = .int n)
    {x : Value} (reached : h.Reaches a x) : x = a ∨ ∃ n, x = .int n := by
  induction reached with
  | refl => exact .inl rfl
  | tail _ held ih =>
      rcases ih with rfl | ⟨n, rfl⟩
      · cases held with
        | item own _ => cases shape.symm.trans own
        | entry files member => exact .inr (flat _ (files_flat shape files ▸ member))
      · cases held with
        | item own _ => cases own
        | entry files _ => cases files with
          | mapping own | fields own _ => cases own

theorem hasKey_flat (shape : h.shape a = .mapping c kind es) (flat : ∀ e ∈ es, ∃ n, e.2 = .int n)
    {k : Value} (has : h.HasKey a k) : k ∈ es.map (·.1.value) := by
  obtain ⟨x, own, e, reached, files, member, rfl⟩ := has
  rcases reaches_flat shape flat reached with rfl | ⟨n, rfl⟩
  · exact List.mem_map_of_mem (files_flat shape files ▸ member)
  · cases files with
    | mapping own | fields own _ => cases own

theorem present_flat (shape : h.shape a = .mapping c kind es)
    (flat : ∀ e ∈ es, ∃ n, e.2 = .int n) : ∀ x d kind' own, h.Reaches a x →
    h.shape x = .mapping d kind' own → ∀ e ∈ own, h.typeOf e.2 ≠ h.typeOf .null := by
  intro x d kind' own reached here e member
  rcases reaches_flat shape flat reached with rfl | ⟨n, rfl⟩
  · cases shape.symm.trans here
    obtain ⟨n, number⟩ := flat e member
    rw [number]
    simp [typeOf]
  · cases here

/-- Of two mappings of numbers it is enough to compare the keys themselves. -/
theorem KeysEquivalent.ofFlat (shape : h.shape a = .mapping c kind es)
    (flat : ∀ e ∈ es, ∃ n, e.2 = .int n) (shape' : h.shape b = .mapping d kind' es')
    (flat' : ∀ e ∈ es', ∃ n, e.2 = .int n)
    (symm : ∀ k ∈ (es ++ es').map (·.1.value), ∀ k' ∈ (es ++ es').map (·.1.value),
      h.sameKey k k' → h.sameKey k' k)
    (trans : ∀ k ∈ (es ++ es').map (·.1.value), ∀ k' ∈ (es ++ es').map (·.1.value),
      ∀ k'' ∈ (es ++ es').map (·.1.value), h.sameKey k k' → h.sameKey k' k'' → h.sameKey k k'') :
    h.KeysEquivalent a b := by
  have listed {k : Value} (has : h.HasKey a k ∨ h.HasKey b k) :
      k ∈ (es ++ es').map (·.1.value) := by
    rw [List.map_append, List.mem_append]
    exact has.imp (hasKey_flat shape flat) (hasKey_flat shape' flat')
  exact ⟨fun _ _ has has' => symm _ (listed has) _ (listed has'),
    fun _ _ _ has has' has'' => trans _ (listed has) _ (listed has') _ (listed has'')⟩

end Flat

/-- Two dictionaries with an entry each. -/
def twins : Heap where
  classes := Standard.classes []
  objects := #[{ cls := "dict", body := .mapping .dict [(.text "k", .int 1)] },
    { cls := "dict", body := .mapping .dict [(.text "k", .int 1)] }]

theorem like_sameUnfolding_twins : twins.KeysEquivalent (.ref 0) (.ref 1) ∧
    twins.like (.ref 0) (.ref 1) = .ok true ∧ twins.SameUnfolding (.ref 0) (.ref 1) := by
  let es : List (Key × Value) := [(.text "k", .int 1)]
  have shape : twins.shape (.ref 0) = .mapping 0 .dict es := rfl
  have shape' : twins.shape (.ref 1) = .mapping 1 .dict es := rfl
  have flat : ∀ e ∈ es, ∃ n, e.2 = .int n := by simp [es]
  have keys : twins.KeysEquivalent (.ref 0) (.ref 1) :=
    .ofFlat shape flat shape' flat (by decide +kernel) (by decide +kernel)
  refine ⟨keys, rfl, like_sameUnfolding keys ?_ (present_flat shape flat) rfl⟩
  intro x own reached files
  rcases reaches_flat shape flat reached with rfl | ⟨n, rfl⟩
  · rw [files_flat shape files]
    intro i j k k' at_i at_j _
    have below := (List.getElem?_eq_some_iff.mp at_i).1
    have below' := (List.getElem?_eq_some_iff.mp at_j).1
    simp only [es, List.map_cons, List.map_nil, List.length_singleton] at below below'
    omega
  · cases files with
    | mapping own | fields own _ => cases own

/-- Two dictionaries with points for keys.  The second key on the left has been made the same as
    the first since it was entered. -/
def lostKeys : Heap where
  classes := Standard.classes Sample.classes
  objects :=
    let point (x y : Int) : Object :=
      { cls := "FrozenPoint", attrs := [("x", .int x), ("y", .int y)] }
    let key (a : Address) (x y : Int) : Key := ⟨.ref a, .ofTuple [.ofInt x, .ofInt y]⟩
    #[point 1 2, point 1 2, point 1 2, point 5 6,
      { cls := "dict", body := .mapping .dict [(key 0 1 2, .int 1), (key 1 3 4, .int 1)] },
      { cls := "dict", body := .mapping .dict [(key 2 1 2, .int 1), (key 3 5 6, .int 1)] }]

/-- It is not enough that keys are compared by an equivalence and no value is null: two keys of
    one mapping must not have become the same. -/
theorem like_misses_lost_key : ¬ ∀ (h : Heap) (a b : Value), h.KeysEquivalent a b →
    (∀ x c kind es, h.Reaches a x → h.shape x = .mapping c kind es →
      ∀ e ∈ es, h.typeOf e.2 ≠ h.typeOf .null) →
    h.like a b = .ok true → h.SameUnfolding a b := by
  intro claim
  let key (a : Address) (x y : Int) : Key := ⟨.ref a, .ofTuple [.ofInt x, .ofInt y]⟩
  let es : List (Key × Value) := [(key 0 1 2, .int 1), (key 1 3 4, .int 1)]
  let es' : List (Key × Value) := [(key 2 1 2, .int 1), (key 3 5 6, .int 1)]
  have shape : lostKeys.shape (.ref 4) = .mapping 4 .dict es := rfl
  have shape' : lostKeys.shape (.ref 5) = .mapping 5 .dict es' := rfl
  have flat : ∀ e ∈ es, ∃ n, e.2 = .int n := by simp [es]
  have flat' : ∀ e ∈ es', ∃ n, e.2 = .int n := by simp [es']
  have keys : lostKeys.KeysEquivalent (.ref 4) (.ref 5) :=
    .ofFlat shape flat shape' flat' (by decide +kernel) (by decide +kernel)
  obtain ⟨R, unfolds, related⟩ := claim lostKeys (.ref 4) (.ref 5) keys
    (present_flat shape flat) rfl
  have missed : ∀ e ∈ es, lostKeys.sameKey e.1.value (.ref 3) = false := by decide +kernel
  cases unfolds _ _ related with
  | leaf _ leaf _ => cases leaf
  | sequence _ own _ _ => cases own
  | structured _ own _ _ _ _ => cases own
  | mapping _ own own' same =>
      cases shape.symm.trans own
      cases shape'.symm.trans own'
      obtain ⟨e, member, found, _⟩ := same.2 (key 3 5 6, .int 1) (by simp [es'])
      exact absurd (missed e member) (by simp [found, key])

end Assay.Heap
