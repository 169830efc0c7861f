import Assay.Proofs.Heap.Settlement
import Assay.Proofs.Renaming.Walk
import Mathlib.Data.Finset.Prod

/-! # Equality on twin heaps

Values that are the same on twin heaps compare in the same way, although equality has another budget
on each of them.
-/

namespace Assay

variable {R : Renaming} {lacking : Prop}

/-! ## Members -/

namespace Heap

section

variable {eq eq' : Comparison} (ordered : R.Ordered) (alike : Alike R lacking eq eq')

include ordered alike

theorem allEqual_related {xs xs' ys ys' : List Value} (left : R.Values xs xs')
    (right : R.Values ys ys') :
    Results R lacking Eq (allEqual eq xs ys) (allEqual eq' xs' ys') := by
  induction left generalizing ys ys' with
  | nil => exact .ok rfl
  | cons here _ ih =>
      cases right with
      | nil => exact .ok rfl
      | @cons y y' _ _ there right =>
          simp only [allEqual]
          have asked := sameOr_related ordered alike here there
          revert asked
          generalize sameOr eq _ _ = r, sameOr eq' _ _ = r'
          intro asked
          cases asked with
          | error same => exact .error same
          | cut lacks => exact .cut lacks
          | @ok b _ same =>
              cases same
              cases b with
              | true => exact ih right
              | false => exact .ok rfl

theorem entriesIn_related {os os' es es' : List (Key × Value)} (other : R.Filed os os')
    (lead : R.Filed es es') : Results R lacking Eq (entriesIn eq os es) (entriesIn eq' os' es') := by
  induction lead with
  | nil => exact .ok rfl
  | @cons p q _ _ here _ ih =>
      obtain ⟨k, v⟩ := p
      obtain ⟨k', v'⟩ := q
      simp only [entriesIn]
      have found := Entries.search_related (fun _ _ => here.1.isFor ordered alike) other
      generalize Entries.search (k.isFor eq) os = r, Entries.search (k'.isFor eq') os' = r'
        at found ⊢
      cases found with
      | error same => exact .error same
      | cut lacks => exact .cut lacks
      | ok found =>
          cases found with
          | none => exact .ok rfl
          | @some w w' there =>
              dsimp only
              have asked := sameOr_related ordered alike here.2 there
              dsimp only at asked
              generalize sameOr eq v w = r, sameOr eq' v' w' = r' at asked ⊢
              cases asked with
              | error same => exact .error same
              | cut lacks => exact .cut lacks
              | @ok b _ same =>
                  cases same
                  cases b with
                  | true => exact ih
                  | false => exact .ok rfl

theorem entriesEqual_related {es es' os os' : List (Key × Value)} (lead : R.Filed es es')
    (other : R.Filed os os') :
    Results R lacking Eq (entriesEqual eq es os) (entriesEqual eq' es' os') := by
  unfold entriesEqual
  rw [← lead.length_eq, ← other.length_eq]
  split
  · exact .ok rfl
  · exact entriesIn_related ordered alike other lead

theorem membersEqual_related {xs xs' ys ys' : List Key} (left : R.Keys xs xs')
    (right : R.Keys ys ys') :
    Results R lacking Eq (membersEqual eq xs ys) (membersEqual eq' xs' ys') := by
  unfold membersEqual
  rw [← left.length_eq, ← right.length_eq]
  split
  · exact .ok rfl
  · exact Results.allM left fun _ _ key =>
      Results.anyM right fun _ _ other => key.isFor ordered alike other

end

end Heap

/-! ## Opinions -/

theorem Value.Renamed.plainOpinion {x x' y y' : Value} (ordered : R.Ordered)
    (left : x.Renamed R x') (right : y.Renamed R y') :
    x'.plainOpinion y' = x.plainOpinion y := by
  have same := left.beq ordered right
  unfold Value.plainOpinion
  rw [left.int?, left.text?, right.int?, right.text?, same]
  -- What is left looks only at the kinds of the two values.
  cases left with
  | datum data =>
      cases right with
      | datum => rfl
      | nan | ref => cases x <;> rfl
  | nan | ref =>
      cases right with
      | datum data => cases y <;> rfl
      | nan | ref => rfl

namespace Heap.Twin

variable {h h' : Heap} (twin : h.Twin R h')

section Truth

include twin

theorem truth {v v' : Value} (renamed : v.Renamed R v') : h'.truth v' = h.truth v := by
  cases renamed with
  | nan => rfl
  | datum data =>
      cases v with
      | ref a => cases data
      | member m =>
          obtain ⟨cls, name, payload, transparent⟩ := m
          cases payload <;> cases transparent <;> rfl
      | _ => rfl
  | @ref a a' here =>
      have body := (twin.objects here).body
      simp only [Heap.truth]
      generalize (h.object a).body = b, (h'.object a').body = b' at body ⊢
      cases body with
      | sequence items => cases items <;> rfl
      | mapping entries => cases entries <;> rfl
      | members items => cases items <;> rfl
      | _ => rfl

theorem asksRightFirst {x x' y y' : Value} (left : x.Renamed R x') (right : y.Renamed R y') :
    h'.asksRightFirst x' y' = h.asksRightFirst x y := by
  simp only [Heap.asksRightFirst, twin.typeOf left, twin.typeOf right, twin.isSubclass]

end Truth

variable {eq eq' : Comparison} (alike : Alike R lacking eq eq')

include twin alike

theorem walksEqual (kind kind' : MappingKind) {es es' os os' : List (Key × Value)}
    (left : R.Filed es es') (right : R.Filed os os') :
    Results R lacking Eq (h.walksEqual eq kind kind' es os) (h'.walksEqual eq' kind kind' es' os') := by
  unfold Heap.walksEqual
  have lead := twin.fileWalk alike (twin.walkEntriesWith alike kind left) .nil
  have other := twin.fileWalk alike (twin.walkEntriesWith alike kind' right) .nil
  generalize h.fileWalk eq [] (h.walkEntriesWith eq kind es) = r,
    h'.fileWalk eq' [] (h'.walkEntriesWith eq' kind es') = r' at lead ⊢
  generalize h.fileWalk eq [] (h.walkEntriesWith eq kind' os) = t,
    h'.fileWalk eq' [] (h'.walkEntriesWith eq' kind' os') = t' at other ⊢
  cases lead with
  | error same => exact .error same
  | cut lacks => exact .cut lacks
  | ok lead =>
      cases other with
      | error same => exact .error same
      | cut lacks => exact .cut lacks
      | ok other => exact entriesEqual_related twin.ordered alike lead other

theorem mappingOpinion (kind kind' : MappingKind) (plain' : Bool)
    {es es' os os' : List (Key × Value)} (left : R.Filed es es') (right : R.Filed os os') :
    Results R lacking Eq (h.mappingOpinion eq kind kind' plain' es os)
      (h'.mappingOpinion eq' kind kind' plain' es' os') := by
  have decided {r r' : Except Fault Bool} (same : Results R lacking Eq r r') :
      Results R lacking Eq (r.map some) (r'.map some) := same.map fun _ _ => congrArg some
  have forth := decided (entriesEqual_related twin.ordered alike left right)
  have back := decided (entriesEqual_related twin.ordered alike right left)
  have open' : Results R lacking Eq (.ok (none : Option Bool)) (.ok none) := .ok rfl
  have ordered : Results R lacking Eq (h.mappingOpinion eq .ordered .ordered plain' es os)
      (h'.mappingOpinion eq' .ordered .ordered plain' es' os') := by
    simp only [Heap.mappingOpinion]
    have keys {es es' : List (Key × Value)} (related : R.Filed es es') :
        R.Values (es.map (·.1.value)) (es'.map (·.1.value)) :=
      map_related related fun _ _ entry => entry.1.value
    have asked := entriesEqual_related twin.ordered alike left right
    generalize entriesEqual eq es os = r, entriesEqual eq' es' os' = r' at asked ⊢
    cases asked with
    | error same => exact .error same
    | cut lacks => exact .cut lacks
    | @ok b _ same =>
        cases same
        cases b with
        | false => exact .ok rfl
        | true => exact decided (allEqual_related twin.ordered alike (keys left) (keys right))
  cases kind with
  | frozen => exact decided (twin.walksEqual alike _ _ left right)
  | view =>
      cases kind' with
      | frozen => exact decided (twin.walksEqual alike _ _ right left)
      | view => exact back
      | dict | ordered | defaulting =>
          cases plain' with
          | true => exact forth
          | false => exact back
  | ordered =>
      cases kind' with
      | frozen | view => exact open'
      | ordered => exact ordered
      | dict | defaulting => exact forth
  | dict | defaulting =>
      cases kind' with
      | frozen | view => exact open'
      | dict | ordered | defaulting => exact forth

/-- What an object without members answers is up to its class. -/
theorem classOpinion {a a' : Address} (here : R a a') (plain : (h.object a).body = .plain)
    {y y' : Value} (right : y.Renamed R y') :
    Results R lacking Eq (h.objectOpinion eq a y) (h'.objectOpinion eq' a' y') := by
  have object := twin.objects here
  have plain' := twin.plain_body here plain
  simp only [Heap.objectOpinion, plain, plain', object.cls, twin.classes]
  cases equality : (h.classes (h.object a).cls).equality with
  | identity =>
      rw [right.beq twin.ordered (.ref here)]
      exact .ok rfl
  | custom compare =>
      exact ((twin.impartial _).compared compare equality a a' y y' here right).loosen.map
        fun _ _ answer => by rw [twin.truth answer]
  | fieldwise names =>
      cases right with
      | nan => exact .ok rfl
      | datum data => cases y <;> first | exact .ok rfl | cases data
      | @ref b b' there =>
          simp only [(twin.objects there).cls]
          split
          · exact .ok rfl
          · refine (twin.readFields here lacking names).bind fun _ _ left => ?_
            exact (twin.readFields there lacking names).bind fun _ _ right =>
              (allEqual_related twin.ordered alike left right).map fun _ _ => congrArg some

theorem objectOpinion {a a' : Address} (here : R a a') {y y' : Value} (right : y.Renamed R y') :
    Results R lacking Eq (h.objectOpinion eq a y) (h'.objectOpinion eq' a' y') := by
  by_cases plain : (h.object a).body = .plain
  · exact twin.classOpinion alike here plain right
  have same : Results R lacking Eq (.ok (if y == .ref a then some true else none))
      (.ok (if y' == .ref a' then some true else none)) := by
    rw [right.beq twin.ordered (.ref here)]
    exact .ok rfl
  have decided {r r' : Except Fault Bool} (same : Results R lacking Eq r r') :
      Results R lacking Eq (r.map some) (r'.map some) := same.map fun _ _ => congrArg some
  have body := (twin.objects here).body
  unfold Heap.objectOpinion
  generalize (h.object a).body = x, (h'.object a').body = x' at plain body ⊢
  cases right with
  | nan there => cases body <;> first | exact same | exact absurd rfl plain
  | datum data =>
      cases body with
      | plain => exact absurd rfl plain
      | octets => cases y <;> first | exact .ok rfl | exact same | cases data
      | _ => cases y <;> first | exact same | cases data
  | @ref b b' there =>
      have other := twin.objects there
      dsimp only
      generalize h.object b = o, h'.object b' = o' at other ⊢
      obtain ⟨cls, x, attrs, slots⟩ := o
      obtain ⟨cls', x', attrs', slots'⟩ := o'
      obtain ⟨rfl, members, -, -⟩ := other
      dsimp only at members
      cases body with
      | plain => exact absurd rfl plain
      | error => exact same
      | octets => cases members <;> first | exact .ok rfl | exact same
      | members left =>
          cases members with
          | members right => exact decided (membersEqual_related twin.ordered alike left right)
          | _ => exact same
      | mapping left =>
          cases members with
          | mapping right => exact twin.mappingOpinion alike _ _ _ left right
          | _ => exact same
      | sequence left =>
          cases members with
          | sequence right =>
              dsimp only
              rw [← left.length_eq, ← right.length_eq]
              split
              · exact same
              · split
                · exact .ok rfl
                · exact (allEqual_related twin.ordered alike left right).map fun _ _ equal => by
                    rw [equal]
          | _ => exact same

theorem opinion {x x' y y' : Value} (left : x.Renamed R x') (right : y.Renamed R y') :
    Results R lacking Eq (h.opinion eq x y) (h'.opinion eq' x' y') := by
  have plain : Results R lacking Eq (.ok (x.plainOpinion y)) (.ok (x'.plainOpinion y')) :=
    .ok (left.plainOpinion twin.ordered right).symm
  cases left with
  | ref here => exact twin.objectOpinion alike here right
  | nan here => exact plain
  | datum data =>
      cases x with
      | ref a => cases data
      | _ => exact plain

end Heap.Twin

/-! ## Comparing -/

/-- The first operand that has an opinion decides. -/
theorem decided_related {o p o' p' : Except Fault (Option Bool)} (same : Bool) :
    Results R lacking Eq o o' → Results R lacking Eq p p' → Results R lacking Eq
      (match o with
        | .error e => .error e
        | .ok (some b) => .ok b
        | .ok none =>
          match p with
          | .error e => .error e
          | .ok (some b) => .ok b
          | .ok none => .ok same)
      (match o' with
        | .error e => .error e
        | .ok (some b) => .ok b
        | .ok none =>
          match p' with
          | .error e => .error e
          | .ok (some b) => .ok b
          | .ok none => .ok same) := by
  intro first second
  cases first with
  | error fault => exact .error fault
  | cut lacks => exact .cut lacks
  | @ok x _ equal =>
      cases equal
      cases x with
      | some b => exact .ok rfl
      | none =>
          cases second with
          | error fault => exact .error fault
          | cut lacks => exact .cut lacks
          | @ok x _ equal =>
              cases equal
              cases x with
              | some b => exact .ok rfl
              | none => exact .ok rfl

namespace Heap.Twin

variable {h h' : Heap} (twin : h.Twin R h')

include twin

theorem equalWithin_succ (lacking : Prop) (n m : Nat)
    (alike : Alike R lacking (h.equalWithin n) (h'.equalWithin m)) :
    Alike R lacking (h.equalWithin (n + 1)) (h'.equalWithin (m + 1)) := by
  intro l l' r r' left right
  have same := (left.eq_iff twin.ordered right)
  have forth := twin.opinion alike left right
  have back := twin.opinion alike right left
  simp only [Heap.equalWithin, twin.asksRightFirst left right, left.beq twin.ordered right]
  cases h.asksRightFirst l r with
  | true =>
      simp only [if_true]
      exact decided_related _ back forth
  | false =>
      simp only [Bool.false_eq_true, if_false]
      exact decided_related _ forth back

theorem equalWithin_outside (n : Nat) {l r : Value} (out : (l, r) ∉ h.residents ×ˢ h.residents) :
    h.equalWithin (n + 2) l r = h.equalWithin (n + 1) l r := by
  refine answer_absent twin.root.equality ?_
  rintro a b rfl rfl
  by_contra live
  rw [not_or, Nat.not_le, Nat.not_le] at live
  exact out (Finset.mem_product.mpr ⟨mem_residents.mpr live.1, mem_residents.mpr live.2⟩)

theorem equal : Alike R False h.equal h'.equal := by
  intro l l' r r' left right
  let compare (h : Heap) (n : Nat) (p : Value × Value) := h.equalWithin n p.1 p.2
  have count : (h.residents ×ˢ h.residents).card ≤ h.objects.size * h.objects.size := by
    rw [Finset.card_product, card_residents]
  refine Results.settled (Both (Value.Renamed R) (Value.Renamed R)) (compare h) (compare h')
    twin.ordered ?_ (fun _ => rfl) (fun _ => rfl) ?_ (h.residents ×ˢ h.residents) ?_ count
    (Nat.mul_le_mul twin.size twin.size) (show Both _ _ (l, r) (l', r') from ⟨left, right⟩)
  · rintro _ _ _ rfl rfl
    rfl
  · rintro lacking n m alike ⟨l, r⟩ ⟨l', r'⟩ ⟨left, right⟩
    refine twin.equalWithin_succ lacking n m (fun x x' y y' left right => ?_) l l' r r' left right
    exact alike (x, y) (x', y') ⟨left, right⟩
  · rintro n ⟨l, r⟩ _ _ out
    exact twin.equalWithin_outside n out

end Heap.Twin

end Assay
