import Assay.Proofs.Snapshot.Likeness
import Assay.Proofs.Snapshot.Told
import Assay.Proofs.Snapshot.Toured

/-! # Values that are not alike

Two values that are not alike have snapshots that differ, as far as they can be told apart by what
snapshots show and no composite stands once opposite itself and once opposite another.  If there were
no difference, the snapshots would lead a tour through both values, and the comparison would take it
to the end.
-/

namespace Assay.Heap

variable (h : Heap)

/-- A composite that is found in both values stands opposite nothing of its class but itself. -/
def Uncrossed (a b : Value) : Prop := ∀ c d, h.Opposite a b (.ref c) (.ref d) →
  h.typeOf (.ref c) = h.typeOf (.ref d) → h.HasComposite a c → h.HasComposite b d →
  h.HasComposite b c ∨ h.HasComposite a d → c = d

variable {h} {a b : Value}

theorem Uncrossed.single (uncrossed : h.Uncrossed a b) {tour : List Meeting} {s t : Snapshot}
    (left : h.snapshot a = .ok s) (right : h.snapshot b = .ok t) (way : h.Tour [(a, b)] tour)
    (fewer : (tour.map (·.1)).Subperm s.wholes) (fewer' : (tour.map (·.2)).Subperm t.wholes) :
    h.Single a b tour := by
  have once {v : Value} {u : Snapshot} {cs : List Address} (taken : h.snapshot v = .ok u)
      (fewer : cs.Subperm u.wholes) : cs.Nodup := by
    refine List.nodup_iff_count_le_one.mpr fun c => (fewer.count_le c).trans ?_
    exact List.nodup_iff_count_le_one.mp (snapshot_wholes taken) c
  have sides (q : Meeting) (inside : q ∈ tour) : h.HasComposite a q.1 ∧ h.HasComposite b q.2 := by
    obtain ⟨p, root, has⟩ := way.sides q inside
    cases List.mem_singleton.mp root
    exact has
  have places (q : Meeting) (inside : q ∈ tour) :=
    way.opposite (List.forall_mem_singleton.mpr .root) q inside
  refine ⟨once left fewer, once right fewer', sides, fun q inside => ?_⟩
  obtain ⟨here, types, apart⟩ := places q inside
  obtain ⟨has, has'⟩ := sides q inside
  exact ⟨fun found => apart (uncrossed q.1 q.2 here types has has' (.inl found)),
    fun found => apart (uncrossed q.1 q.2 here types has has' (.inr found))⟩

/-- Values whose snapshots agree are not told to be unlike. -/
theorem Discernible.not_unlike {s t : Snapshot}
    (plain : (h.classes "object").equality = .identity) (discernible : h.Discernible a b)
    (uncrossed : h.Uncrossed a b) (left : h.snapshot a = .ok s) (right : h.snapshot b = .ok t)
    (agrees : Snapshot.Agrees h t s) : h.like a b ≠ .ok false := by
  obtain ⟨tour, way, fewer, fewer'⟩ := discernible.toured plain .root
    ⟨[], .null, _, Prod.ext rfl left⟩ ⟨_, [], .null, _, Prod.ext rfl right⟩ agrees
  have single := uncrossed.single left right way fewer fewer'
  let all : Value × Value → Bool := fun _ => true
  have leaves (p : Value × Value) (passed : all p = false) : h.isLeaf p.1 := nomatch passed
  have accepts := way.accepts discernible.kept single
    (List.forall_mem_singleton.mpr ⟨.refl, .refl⟩) leaves (.next .done) (h.objects.size + 1)
    fun _ _ => ⟨List.not_mem_nil, List.not_mem_nil⟩
  have answer : likeEach (h.likeWithin (h.objects.size + 1)) [] [.ok (a, b)] =
      h.likeWithin (h.objects.size + 1) [] a b := by
    rw [likeEach]
    split
    · simp_all [likeEach]
    · rfl
  exact (answer ▸ accepts).not_unlike

/-- Two values that are not alike have a difference between their snapshots.  It is told where what
    is asked about it is answered. -/
theorem diff_of_unlike {s t : Snapshot} (plain : (h.classes "object").equality = .identity)
    (discernible : h.Discernible a b) (uncrossed : h.Uncrossed a b)
    (left : h.snapshot a = .ok s) (right : h.snapshot b = .ok t)
    (unlike : h.like a b = .ok false) : (t.diff h (some s)).2 ≠ .ok none ∧
      (h.Answered b a → ∃ d, (t.diff h (some s)).2 = .ok (some d)) := by
  have differs : (t.diff h (some s)).2 ≠ .ok none := by
    intro agrees
    exact discernible.not_unlike plain uncrossed left right agrees unlike
  refine ⟨differs, fun answered => ?_⟩
  obtain ⟨r, told⟩ := answered.diff right left
  cases r with
  | none => exact absurd told differs
  | some d => exact ⟨d, told⟩

/-! ## Widgets with lists -/

variable {x y : Value} {ps qs : List Part}

theorem Opposite.among {pairs : List (Value × Value)} (start : (a, b) ∈ pairs)
    (closed : ∀ p ∈ pairs, ∀ q members, h.Members p.1 p.2 q members → ∀ r ∈ members, r ∈ pairs)
    (places : h.Opposite a b x y) : (x, y) ∈ pairs := by
  induction places with
  | root => exact start
  | member _ _ _ of inside ih => exact closed _ ih _ _ of _ inside

theorem Members.sequence_eq {c d : Address} {xs ys : List Value} {q : Meeting}
    {members : List (Value × Value)} (of : h.Members x y q members)
    (shape : h.shape x = .sequence c xs) (shape' : h.shape y = .sequence d ys) :
    members = xs.zip ys := by
  cases of with
  | sequence own own' =>
      cases shape.symm.trans own
      cases shape'.symm.trans own'
      rfl
  | mapping own | structured own => cases shape.symm.trans own

/-- Of two objects with one field each the fields are a pair. -/
theorem Members.field_eq {c d : Address} {e e' : Key × Value} {q : Meeting}
    {members : List (Value × Value)} (of : h.Members x y q members)
    (shape : h.shape x = .structured c) (shape' : h.shape y = .structured d)
    (own : h.fields c = .ok [e]) (own' : h.fields d = .ok [e']) : members = [(e.2, e'.2)] := by
  cases of with
  | sequence other | mapping other => cases shape.symm.trans other
  | structured other other' told told' matching =>
      cases shape.symm.trans other
      cases shape'.symm.trans other'
      cases own.symm.trans told
      cases own'.symm.trans told'
      obtain ⟨pair, rfl, rfl⟩ := List.map_eq_singleton_iff.mp matching.left
      have single := List.perm_singleton.mp matching.right
      simp only [List.map_cons, List.map_nil, List.cons.injEq, and_true] at single
      simp [matchedValues, single]

theorem sameName_texts {s t : String} : h.SameName (.text s) (.text t) ↔ s = t := by
  constructor
  · rintro ⟨_, _, made, made', found⟩
    cases made
    cases made'
    exact eq_of_beq (Except.ok.inj ((isFor_texts s t).symm.trans found))
  · rintro rfl
    exact ⟨_, _, key_text s, key_text s, isFor_self _⟩

/-- Fields with texts as their names are told apart by them. -/
theorem partsApart_texts {names : List (String × Value)}
    (texts : ∀ p ∈ ps, ∃ s v, p = .field (.text s) v) (once : (names.map (·.1)).Nodup) :
    h.PartsApart ps (names.map fun e => .field (.text e.1) e.2) := by
  intro p inside i j q q' at_i at_j one other
  obtain ⟨s, v, rfl⟩ := texts p inside
  rw [List.getElem?_map, Option.map_eq_some_iff] at at_i at_j
  obtain ⟨e, here, rfl⟩ := at_i
  obtain ⟨e', there, rfl⟩ := at_j
  have same {t : String} {w : Value} (alike : h.Alike (.field (.text s) v) (.field (.text t) w)) :
      t = s := by
    rcases alike with found | found
    · exact (sameName_texts.mp found).symm
    · exact sameName_texts.mp found
  have at_i : (names.map (·.1))[i]? = some s := by simp [here, same one]
  have at_j : (names.map (·.1))[j]? = some s := by simp [there, same other]
  obtain ⟨below, first⟩ := List.getElem?_eq_some_iff.mp at_i
  obtain ⟨below', second⟩ := List.getElem?_eq_some_iff.mp at_j
  exact (List.Nodup.getElem_inj_iff once).mp (first.trans second.symm)

variable (h) in
/-- The members that a value has, as far as they are told. -/
def toldParts (u : Value) : List Part :=
  match h.parts (h.shape u) with
  | .ok walk => walk.filterMap Except.toOption
  | .error _ => []

theorem HasParts.toldParts_eq {u : Value} (members : h.HasParts u ps) : h.toldParts u = ps := by
  unfold HasParts at members
  simp only [toldParts, members, List.filterMap_map]
  exact List.filterMap_some

theorem PassesBy.among_told {u v : Value} {values : List Value} (start : v ∈ values)
    (closed : ∀ w ∈ values, ∀ p ∈ h.toldParts w, ∀ x ∈ p.values, x ∈ values)
    (passes : h.PassesBy v u) : u ∈ values := by
  induction passes with
  | self => exact start
  | member _ members present inside ih =>
      exact closed _ ih _ (members.toldParts_eq ▸ present) _ inside

/-- Two lists, each with a widget of its own and a list that holds itself.  One widget has the same
    list twice, where the other has two that are equal. -/
def doubles : Heap where
  classes := Standard.classes Sample.classes
  objects :=
    let list (items : List Value) : Object := { cls := "list", body := .sequence .list items }
    let widget (parts : Value) : Object := { cls := "Widget", attrs := [("parts", parts)] }
    #[list [.int 1], list [.ref 0, .ref 0], widget (.ref 1), list [.int 1], list [.int 1],
      list [.ref 3, .ref 4], widget (.ref 5), list [.ref 7], list [.ref 2, .ref 7],
      list [.ref 6, .ref 7]]

def doublesLeft : List Value := [.ref 8, .ref 2, .ref 7, .ref 1, .ref 0, .int 1]

def doublesRight : List Value := [.ref 9, .ref 6, .ref 7, .ref 5, .ref 3, .ref 4, .int 1]

/-- What is at one place of the two lists. -/
def doublesPairs : List (Value × Value) :=
  [(.ref 8, .ref 9), (.ref 2, .ref 6), (.ref 7, .ref 7), (.ref 1, .ref 5), (.ref 0, .ref 3),
    (.ref 0, .ref 4), (.int 1, .int 1)]

/-- What is shown of the lists, and of what the widgets share. -/
def doublesValues : List Value := .text "widget" :: .int 10 :: (doublesLeft ++ doublesRight)

/-- What is shown of a widget. -/
def widgetFields (parts : Value) : List (String × Value) :=
  [("kind", .text "widget"), ("limit", .int 10), ("parts", parts)]

theorem doubles_left {u : Value} (reached : doubles.Reaches (.ref 8) u) : u ∈ doublesLeft :=
  reached.among (by simp [doublesLeft]) (by decide)

theorem doubles_right {u : Value} (reached : doubles.Reaches (.ref 9) u) : u ∈ doublesRight :=
  reached.among (by simp [doublesRight]) (by decide)

theorem doubles_within {u : Value} (within : doubles.Within (.ref 8) (.ref 9) u) :
    u ∈ doublesValues := by
  rcases within with left | right
  · simp [doublesValues, doubles_left left]
  · simp [doublesValues, doubles_right right]

theorem doubles_passed {u : Value} (passed : doubles.Passed (.ref 9) (.ref 8) u) :
    u ∈ doublesValues := by
  have closed : ∀ u ∈ doublesValues, ∀ p ∈ doubles.toldParts u, ∀ v ∈ p.values,
      v ∈ doublesValues := by
    decide
  rcases passed with left | right
  · exact left.among_told (by decide) closed
  · exact right.among_told (by decide) closed

theorem doubles_pairs (places : doubles.Opposite (.ref 8) (.ref 9) x y) :
    (x, y) ∈ doublesPairs := by
  have items {c d : Address} {xs ys : List Value} (shape : doubles.shape (.ref c) = .sequence c xs)
      (shape' : doubles.shape (.ref d) = .sequence d ys)
      (inside : ∀ r ∈ xs.zip ys, r ∈ doublesPairs) (q : Meeting) (members : List (Value × Value))
      (of : doubles.Members (.ref c) (.ref d) q members) : ∀ r ∈ members, r ∈ doublesPairs :=
    of.sequence_eq shape shape' ▸ inside
  refine places.among (by simp [doublesPairs]) ?_
  simp only [doublesPairs, List.forall_mem_cons, List.not_mem_nil, false_implies, implies_true,
    and_true]
  refine ⟨items rfl rfl (by decide), fun q members of => ?_, items rfl rfl (by decide),
    items rfl rfl (by decide), items rfl rfl (by decide), items rfl rfl (by decide),
    fun q members of => ?_⟩
  · rw [of.field_eq rfl rfl rfl rfl]
    decide
  · cases of.address_left

theorem doubles_kind {u : Value} (inside : u ∈ doublesValues) : doubles.kind u ≠ .mapping ∧
    (doubles.kind u = .structured → u = .ref 2 ∨ u = .ref 6) := by
  revert u
  decide

theorem doubles_files {u : Value} {es : List (Key × Value)} (inside : u ∈ doublesValues)
    (files : doubles.Files u es) : ∃ v, es = [(.text "parts", v)] := by
  obtain ⟨mapping, structured⟩ := doubles_kind inside
  cases files with
  | mapping shape => exact absurd (by simp [kind, shape, Shape.kind]) mapping
  | fields shape own =>
      rcases structured (by simp [kind, shape, Shape.kind]) with rfl | rfl
      · cases shape
        cases own
        exact ⟨_, rfl⟩
      · cases shape
        cases own
        exact ⟨_, rfl⟩

theorem doubles_parts {u : Value} {ps : List Part} (inside : u ∈ doublesValues)
    (structured : doubles.kind u = .structured) (parts : doubles.HasParts u ps) :
    ∃ v, ps = (widgetFields v).map fun e => .field (.text e.1) e.2 := by
  rcases (doubles_kind inside).2 structured with rfl | rfl
  · have whole : doubles.HasParts (.ref 2)
        ((widgetFields (.ref 1)).map fun e => .field (.text e.1) e.2) := rfl
    exact ⟨_, parts.unique whole⟩
  · have whole : doubles.HasParts (.ref 6)
        ((widgetFields (.ref 5)).map fun e => .field (.text e.1) e.2) := rfl
    exact ⟨_, parts.unique whole⟩

theorem doubles_kept : doubles.KeysKept (.ref 8) (.ref 9) := by
  have key (k : Key) (own : doubles.KeyWithin (.ref 8) (.ref 9) k) : k = .text "parts" := by
    obtain ⟨v, es, e, within, files, member, rfl⟩ := own
    obtain ⟨_, rfl⟩ := doubles_files (doubles_within within) files
    cases List.mem_singleton.mp member
    rfl
  constructor
  · intro k own
    rw [key k own]
    exact key_text _
  · intro k k' own own' _
    rw [key k own, key k' own']
  · intro v es within files k _ i j k₁ k₂ at_i at_j _ _
    obtain ⟨_, rfl⟩ := doubles_files (doubles_within within) files
    have below := (List.getElem?_eq_some_iff.mp at_i).1
    have below' := (List.getElem?_eq_some_iff.mp at_j).1
    simp only [List.map_cons, List.map_nil, List.length_singleton] at below below'
    omega

theorem doubles_shared {v : Value} {d : Address} {shared : List (Key × Value)}
    (inside : v ∈ doublesValues) (shape : doubles.shape v = .structured d)
    (told : doubles.sharedFields d = .ok shared) :
    shared = [(.text "kind", .text "widget"), (.text "limit", .int 10)] := by
  rcases (doubles_kind inside).2 (by simp [kind, shape, Shape.kind]) with rfl | rfl
  · cases shape
    cases told
    rfl
  · cases shape
    cases told
    rfl

theorem doubles_labels {u v : Value} (left : u ∈ doublesValues) (right : v ∈ doublesValues) :
    doubles.LabelsApart u v := by
  constructor
  · intro c kind es d kind' es' shape
    exact absurd (by simp [Heap.kind, shape, Shape.kind]) (doubles_kind left).1
  · intro ps qs structured structured' parts parts'
    obtain ⟨_, rfl⟩ := doubles_parts left structured parts
    obtain ⟨_, rfl⟩ := doubles_parts right structured' parts'
    refine partsApart_texts (fun p inside => ?_) (by simp [widgetFields])
    obtain ⟨e, _, rfl⟩ := List.mem_map.mp inside
    exact ⟨_, _, rfl⟩
  · intro c d es shared shape shape' own told e member e' member'
    obtain ⟨_, rfl⟩ := doubles_files left (.fields shape own)
    cases doubles_shared right shape' told
    cases List.mem_singleton.mp member
    have names : ∀ e' ∈ [(Key.text "kind", Value.text "widget"), (.text "limit", .int 10)],
        ∃ s, e'.1.value = .text s ∧ "parts" ≠ s := by
      simp [Key.text, Key.plain]
    obtain ⟨s, name, apart⟩ := names e' member'
    rw [name]
    exact ⟨fun same => apart (sameName_texts.mp same),
      fun same => apart (sameName_texts.mp same).symm⟩

theorem doubles_discernible : doubles.Discernible (.ref 8) (.ref 9) := by
  have forms : ∀ p ∈ doublesPairs, doubles.form p.1 = doubles.form p.2 := by decide
  have leaves : ∀ p ∈ doublesPairs, doubles.isLeaf p.1 → doubles.leafEqual p.1 p.2 ≠ .ok false := by
    decide
  have sides : ∀ p ∈ doublesPairs, p.1 ∈ doublesValues ∧ p.2 ∈ doublesValues := by decide
  have selves : ∀ p ∈ doublesPairs, p.1 = p.2 → p.1 = .ref 7 ∨ p.1 = .int 1 := by decide
  refine ⟨doubles_kept, fun x y places _ => forms _ (doubles_pairs places), ?_, ?_, ?_⟩
  · intro x y places _ _ u member v member'
    obtain ⟨left, right⟩ := sides _ (doubles_pairs places)
    have among : ∀ w ∈ [x, y], w ∈ doublesValues :=
      List.forall_mem_cons.mpr ⟨left, List.forall_mem_singleton.mpr right⟩
    exact doubles_labels (among u member) (among v member')
  · intro x y places _ leaf _ _
    exact leaves _ (doubles_pairs places) leaf
  · intro x c places address u reached leaf
    rcases selves _ (doubles_pairs places) rfl with rfl | rfl
    · cases List.mem_singleton.mp (reached.among (List.mem_singleton.mpr rfl) (by decide))
      cases leaf
    · cases address

theorem doubles_uncrossed : doubles.Uncrossed (.ref 8) (.ref 9) := by
  have own : ∀ p ∈ doublesPairs, p.1 ∈ doublesRight ∨ p.2 ∈ doublesLeft → p.1 = p.2 := by decide
  intro c d places _ _ _ crossed
  have same := own _ (doubles_pairs places) (crossed.imp (fun has => doubles_right has.reaches)
    fun has => doubles_left has.reaches)
  exact Value.ref.inj same

theorem doubles_answered : doubles.Answered (.ref 9) (.ref 8) := by
  have name (n : Value) (names : doubles.Names (.ref 9) (.ref 8) n) : ∃ s, n = .text s := by
    obtain ⟨u, ps, v, passed, parts, inside⟩ := names
    have structured : doubles.kind u = .structured := (parts.kind_eq _ inside).symm
    obtain ⟨_, rfl⟩ := doubles_parts (doubles_passed passed) structured parts
    obtain ⟨e, _, same⟩ := List.mem_map.mp inside
    cases same
    exact ⟨_, rfl⟩
  have label (k : Key) (within : doubles.LabelWithin (.ref 9) (.ref 8) k) : ∃ s, k = .text s := by
    rcases within with text | ⟨n, names, made⟩
    · exact text
    · obtain ⟨s, rfl⟩ := name n names
      exact ⟨s, Except.ok.inj (made.symm.trans (key_text s))⟩
  have answers {α : Type} {e : Except Fault α} (ok : e.toBool) : ∃ x, e = .ok x := by
    cases e with
    | error f => cases ok
    | ok x => exact ⟨x, rfl⟩
  have written : ∀ v ∈ doublesValues, doubles.isLeaf v →
      (doubles.summarize (doubles.freeze v)).toBool := by decide +kernel
  have compared : ∀ x ∈ doublesValues, ∀ y ∈ doublesValues, doubles.isLeaf x → doubles.isLeaf y →
      (doubles.contentEqual (doubles.freeze x) (doubles.freeze y)).toBool := by decide
  constructor
  · intro k k' within within'
    obtain ⟨s, rfl⟩ := label k within
    obtain ⟨t, rfl⟩ := label k' within'
    exact ⟨_, isFor_texts s t⟩
  · intro n names
    obtain ⟨s, rfl⟩ := name n names
    exact Snapshot.named_text s
  · intro v passed leaf
    exact answers (written v (doubles_passed passed) leaf)
  · intro x y left right leaf leaf' _
    exact answers
      (compared x (doubles_passed (.inl left)) y (doubles_passed (.inr right)) leaf leaf')
  · intro v passed
    have types : ∀ v ∈ doublesValues, doubles.typeOf v ≠ entryClass := by decide
    exact types v (doubles_passed passed)

/-- A list that is there twice is told from two lists, though all that they hold is equal. -/
theorem diff_of_unlike_doubles : (doubles.classes "object").equality = .identity ∧
    doubles.Discernible (.ref 8) (.ref 9) ∧ doubles.Uncrossed (.ref 8) (.ref 9) ∧
    doubles.like (.ref 8) (.ref 9) = .ok false ∧ doubles.Answered (.ref 9) (.ref 8) ∧
    ∃ s t, doubles.snapshot (.ref 8) = .ok s ∧ doubles.snapshot (.ref 9) = .ok t ∧
      (t.diff doubles (some s)).2 ≠ .ok none ∧ ∃ d, (t.diff doubles (some s)).2 = .ok (some d) := by
  have differs := diff_of_unlike rfl doubles_discernible doubles_uncrossed rfl rfl rfl
  exact ⟨rfl, doubles_discernible, doubles_uncrossed, rfl, doubles_answered, _, _, rfl, rfl,
    differs.1, differs.2 doubles_answered⟩

/-- Pairs of values that are not alike, for reasons that snapshots do not show: a list with something
    that is not equal to itself; keys that are written alike but are not equal; a field of its own
    where another object has it of its class; a key that has changed since it was entered; and lists
    of equal lists, one of which is in both, at different places. -/
def oddities : Heap where
  classes := Standard.classes Sample.classes
  objects :=
    let list (items : List Value) : Object := { cls := "list", body := .sequence .list items }
    let dict (k : Key) : Object := { cls := "dict", body := .mapping .dict [(k, .int 1)] }
    let error (args : Address) : Object := { cls := "ValueError", body := .error (.ref args) }
    let widget (attrs : List (String × Value)) : Object := { cls := "Widget", attrs }
    let point : Object := { cls := "FrozenPoint", attrs := [("x", .int 1), ("y", .int 2)] }
    #[list [.nan 0], { cls := "tuple", body := .sequence .tuple [.text "x"] }, error 1, error 1,
      dict (.plain (.ref 2)), dict (.plain (.ref 3)), widget [], widget [("kind", .text "widget")],
      point, point, dict ⟨.ref 8, .ofTuple [.ofInt 1, .ofInt 2]⟩,
      dict ⟨.ref 9, .ofTuple [.ofInt 3, .ofInt 2]⟩, list [.int 1], list [.int 1], list [.int 1],
      list [.ref 12, .ref 13], list [.ref 14, .ref 12]]

/-- Values that the conditions leave out.  Beside the oddities there are sets that are equal in one
    order only, and objects with two fields of one name. -/
def unexplained : List (Heap × Value × Value) :=
  [(oddities, .ref 0, .ref 0), (oddities, .ref 4, .ref 5), (oddities, .ref 6, .ref 7),
    (oddities, .ref 10, .ref 11), (oddities, .ref 15, .ref 16), (changedSets, .ref 5, .ref 4),
    (lostNames, .ref 7, .ref 6)]

theorem unexplained_unlike : ∀ o ∈ unexplained, o.1.like o.2.1 o.2.2 = .ok false ∧
    ∃ s t, o.1.snapshot o.2.1 = .ok s ∧ o.1.snapshot o.2.2 = .ok t ∧
      (t.diff o.1 (some s)).2 = .ok none := by
  have same : ∀ o ∈ unexplained, o.1.like o.2.1 o.2.2 = .ok false ∧
      (do let s ← o.1.snapshot o.2.1
          let t ← o.1.snapshot o.2.2
          return (← (t.diff o.1 (some s)).2).isNone) = .ok true := by
    decide +kernel
  intro o inside
  obtain ⟨unlike, none⟩ := same o inside
  refine ⟨unlike, ?_⟩
  cases left : o.1.snapshot o.2.1 with
  | error f => simp [left, bind, Except.bind] at none
  | ok s =>
      cases right : o.1.snapshot o.2.2 with
      | error f => simp [left, right, bind, Except.bind] at none
      | ok t =>
          refine ⟨s, t, rfl, rfl, ?_⟩
          simp only [left, right, bind, Except.bind] at none
          cases told : (t.diff o.1 (some s)).2 with
          | error f => simp [told] at none
          | ok d => cases d <;> simp_all [pure, Except.pure]

/-- It is not enough that snapshots of both values can be taken. -/
theorem diff_misses_unlike : ¬ ∀ (h : Heap) (a b : Value) (s t : Snapshot),
    h.snapshot a = .ok s → h.snapshot b = .ok t → h.like a b = .ok false →
    (t.diff h (some s)).2 ≠ .ok none := by
  intro claim
  have first : (oddities, .ref 6, .ref 7) ∈ unexplained := by simp [unexplained]
  obtain ⟨unlike, s, t, left, right, none⟩ := unexplained_unlike _ first
  exact claim _ _ _ s t left right unlike none

end Assay.Heap
