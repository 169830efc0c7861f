import Assay.Heap.Access
import Assay.Likeness
import Assay.Proofs.Heap.Trip
import Assay.Proofs.Renaming.Fields

/-! # Likeness on twin heaps

What matchers find out about values is the same on twin heaps.
-/

namespace Assay

variable {R : Renaming}

namespace Heap.Twin

variable {h h' : Heap} (twin : h.Twin R h')

include twin

/-! ## Pairs -/

theorem pendingFields {rs rs' ls ls' : List (Key × Value)} (right : R.Filed rs rs')
    (left : R.Filed ls ls') :
    Results R False (Option.Rel (List.Forall₂ (Both (Value.Renamed R) (Value.Renamed R))))
      (h.pendingFields rs ls) (h'.pendingFields rs' ls') := by
  induction left with
  | nil => exact .ok (.some .nil)
  | @cons p q ls ls' here _ ih =>
      obtain ⟨name, l⟩ := p
      obtain ⟨name', l'⟩ := q
      obtain ⟨key, value⟩ := here
      dsimp only at key value
      simp only [Heap.pendingFields]
      have found := twin.find right key.value
      generalize h.find name.value rs = r, h'.find name'.value rs' = r' at found ⊢
      cases found using Results.both with
      | error same => exact .error same
      | ok other =>
          dsimp only
          rw [twin.typeOf value, twin.typeOf other, twin.isLeaf value]
          split
          · exact .ok .none
          · split
            · have equal := twin.leafEqual value other
              revert equal
              generalize h.leafEqual l _ = r, h'.leafEqual l' _ = r'
              intro equal
              cases equal using Results.both with
              | error same => exact .error same
              | @ok b _ same =>
                  cases same
                  cases b with
                  | true => exact ih
                  | false => exact .ok .none
            · refine ih.map fun _ _ rest => ?_
              cases rest with
              | none => exact .none
              | some rest => exact .some (.cons ⟨value, other⟩ rest)

theorem fieldPairs {a a' b b' : Address} (left : R a a') (right : R b b') :
    Results R False (Option.Rel (List.Forall₂ (Both (Value.Renamed R) (Value.Renamed R))))
      (h.fieldPairs a b) (h'.fieldPairs a' b') := by
  unfold Heap.fieldPairs
  refine (twin.fields left).bind fun _ _ ls => (twin.fields right).bind fun _ _ rs => ?_
  have keys {es es' : List (Key × Value)} (related : R.Filed es es') :
      R.Keys (es.map (·.1)) (es'.map (·.1)) := map_related related fun _ _ entry => entry.1
  refine (membersEqual_related twin.ordered twin.equal (keys ls) (keys rs)).bind fun b _ same => ?_
  cases same
  cases b with
  | true => exact twin.pendingFields rs ls
  | false => exact .ok .none

theorem entryPairs {rs rs' : List (Key × Value)} (right : R.Filed rs rs')
    {ls ls' : Walk (Value × Value)}
    (left : Walks R False (Both (Value.Renamed R) (Value.Renamed R)) ls ls') :
    Walks R False (Both (Value.Renamed R) (Value.Renamed R)) (h.entryPairs rs ls)
      (h'.entryPairs rs' ls') := by
  refine left.bind fun p p' entry => ?_
  refine (twin.under? twin.equal entry.1 right).bind fun _ _ found => .ok ⟨entry.2, ?_⟩
  cases found with
  | none => exact .datum rfl
  | some value => exact value

theorem likePairs {s s' t t' : Shape} (left : s.Renamed R s') (right : t.Renamed R t') :
    Results R False (Option.Rel (Walks R False (Both (Value.Renamed R) (Value.Renamed R))))
      (h.likePairs s t) (h'.likePairs s' t') := by
  have differ : Results R False
      (Option.Rel (Walks R False (Both (Value.Renamed R) (Value.Renamed R)))) (.ok none)
      (.ok none) := .ok .none
  cases left with
  | leaf => exact differ
  | sequence here xs =>
      cases right with
      | sequence there ys =>
          simp only [Heap.likePairs, ← xs.length_eq, ← ys.length_eq]
          split
          · exact .ok (.some (.of_ok (zip_related xs ys)))
          · exact differ
      | _ => exact differ
  | mapping here ls =>
      cases right with
      | mapping there rs =>
          simp only [Heap.likePairs, ← ls.length_eq, ← rs.length_eq]
          split
          · exact .ok (.some (twin.entryPairs rs (twin.walkEntriesWith twin.equal _ ls)))
          · exact differ
      | _ => exact differ
  | structured here =>
      cases right with
      | structured there =>
          refine (twin.fieldPairs here there).map fun _ _ pairs => ?_
          cases pairs with
          | none => exact .none
          | some pairs => exact .some (.of_ok pairs)
      | _ => exact differ

end Heap.Twin

/-! ## Comparing -/

namespace Heap

theorem Entered.enterComposite {h : Heap} {seen : List Address} (entered : h.Entered seen)
    {a : Address} (live : a < h.objects.size) : h.Entered (enterComposite seen a) := by
  unfold Heap.enterComposite
  split
  · exact entered
  · rename_i new
    exact entered.enter (by simpa using new) live

theorem length_enterComposite (seen : List Address) (a : Address) :
    seen.length ≤ (enterComposite seen a).length := by
  unfold enterComposite
  split <;> simp

theorem length_enterComposite_new {seen : List Address} {a : Address} (new : seen.contains a = false) :
    (enterComposite seen a).length = seen.length + 1 := by
  rw [enterComposite, if_neg (by simp only [new, Bool.false_eq_true, not_false_eq_true]),
    List.length_append, List.length_singleton]

theorem enterComposite_related (ordered : R.Ordered) {seen seen' : List Address}
    (related : List.Forall₂ R seen seen') {a a' : Address} (here : R a a') :
    List.Forall₂ R (enterComposite seen a) (enterComposite seen' a') := by
  unfold enterComposite
  rw [contains_related ordered related here]
  split
  · exact related
  · exact List.rel_append related (.cons here .nil)

/-- Composites that have been entered, at least as many as given, on both heaps. -/
structure Met (h : Heap) (R : Renaming) (count : Nat) (seen seen' : List Address) : Prop where
  same : List.Forall₂ R seen seen'
  entered : h.Entered seen
  least : count ≤ seen.length

/-- Two composites are entered, of which the first one is new. -/
theorem Met.enter {h : Heap} {count : Nat} {seen seen' : List Address}
    (met : h.Met R count seen seen') (ordered : R.Ordered) {a a' b b' : Address} (here : R a a')
    (there : R b b') (new : seen.contains a = false) (live : a < h.objects.size)
    (live' : b < h.objects.size) : h.Met R (seen.length + 1)
      (enterComposite (enterComposite seen a) b) (enterComposite (enterComposite seen' a') b') where
  same := enterComposite_related ordered (enterComposite_related ordered met.same here) there
  entered := (met.entered.enterComposite live).enterComposite live'
  least := by
    rw [← length_enterComposite_new new]
    exact length_enterComposite _ b

/-- Both comparisons find the same on two heaps, where at least so many composites count as
entered. -/
def LikensAlike (h : Heap) (R : Renaming) (count : Nat)
    (like like' : List Address → Value → Value → Likeness) : Prop :=
  ∀ seen seen' l l' r r', h.Met R count seen seen' → l.Renamed R l' → r.Renamed R r' →
    Results R False (Option.Rel (h.Met R count)) (like seen l r) (like' seen' l' r')

theorem likeEach_related {h : Heap} {count : Nat}
    {like like' : List Address → Value → Value → Likeness} (alike : h.LikensAlike R count like like')
    {walk walk' : Walk (Value × Value)}
    (pairs : Walks R False (Both (Value.Renamed R) (Value.Renamed R)) walk walk')
    {seen seen' : List Address} (met : h.Met R count seen seen') :
    Results R False (Option.Rel (h.Met R count)) (likeEach like seen walk)
      (likeEach like' seen' walk') := by
  induction pairs generalizing seen seen' with
  | nil => exact .ok (.some met)
  | cut lacks => exact lacks.elim
  | error same => exact .error same
  | @ok p p' _ _ pair _ ih =>
      obtain ⟨x, y⟩ := p
      obtain ⟨x', y'⟩ := p'
      have compared := alike seen seen' x x' y y' met pair.1 pair.2
      simp only [likeEach]
      generalize like seen x y = r, like' seen' x' y' = r' at compared ⊢
      cases compared using Results.both with
      | error same => exact .error same
      | ok answer =>
          cases answer with
          | none => exact .ok .none
          | some met => exact ih met

end Heap

namespace Heap.Twin

variable {h h' : Heap} (twin : h.Twin R h')

include twin

/-- No composite is entered twice, so that the budgets are enough on both heaps. -/
theorem likeWithin {n m : Nat} (le : n ≤ m) {count : Nat} (enough : h.objects.size + 1 ≤ n + count) :
    h.LikensAlike R count (h.likeWithin n) (h'.likeWithin m) := by
  induction n generalizing m count with
  | zero =>
      intro seen seen' l l' r r' met left right
      have room := met.entered.length
      have least := met.least
      omega
  | succ n ih =>
      obtain ⟨m, rfl⟩ : ∃ k, m = k + 1 := ⟨m - 1, by omega⟩
      intro seen seen' l l' r r' met left right
      have shape := twin.shape left
      have shape' := twin.shape right
      have address := shape.address?
      have address' := shape'.address?
      have pairs := twin.likePairs shape shape'
      have inside := contained_of_bare twin.root.fields
      have live := inside l
      have live' := inside r
      have equal := twin.leafEqual left right
      simp only [Heap.likeWithin, twin.typeOf left, twin.typeOf right]
      generalize h.shape l = s, h'.shape l' = s' at shape address pairs live ⊢
      generalize h.shape r = t, h'.shape r' = t' at shape' address' pairs live' ⊢
      generalize s.address? = x, s'.address? = x' at address live ⊢
      generalize t.address? = y, t'.address? = y' at address' live' ⊢
      split
      · exact .ok .none
      · cases address with
        | none =>
            refine equal.map fun b _ same => ?_
            cases same
            cases b with
            | true => exact .some met
            | false => exact .none
        | @some a a' here =>
            cases address' with
            | none => exact .ok .none
            | @some b b' there =>
                have same := twin.ordered.eq_iff here there
                dsimp only
                rw [contains_related twin.ordered met.same here,
                  contains_related twin.ordered met.same there]
                split
                · have itself : (a' == b') = (a == b) := by
                    rw [Bool.eq_iff_iff, beq_iff_eq, beq_iff_eq]
                    exact same.symm
                  rw [itself]
                  split
                  · exact .ok (.some met)
                  · exact .ok .none
                · rename_i new
                  rw [Bool.or_eq_true, not_or, Bool.not_eq_true] at new
                  generalize h.likePairs s t = r, h'.likePairs s' t' = r' at pairs ⊢
                  cases pairs using Results.both with
                  | error same => exact .error same
                  | ok pairs =>
                      cases pairs with
                      | none => exact .ok .none
                      | some pairs =>
                          have entered := met.enter twin.ordered here there new.1 (live a rfl)
                            (live' b rfl)
                          -- What is entered makes up for the budget that is spent.
                          have least := met.least
                          have room : h.objects.size + 1 ≤ n + (seen.length + 1) := by omega
                          refine (likeEach_related (ih (Nat.le_of_succ_le_succ le) room) pairs
                            entered).imp fun _ _ answer => ?_
                          cases answer with
                          | none => exact .none
                          | some last => exact .some ⟨last.same, last.entered, by
                              have more := last.least
                              omega⟩

theorem like {l l' r r' : Value} (left : l.Renamed R l') (right : r.Renamed R r') :
    Results R False Eq (h.like l r) (h'.like l' r') := by
  have alike := twin.likeWithin (Nat.succ_le_succ twin.size) (Nat.le_refl _) [] [] l l' r r'
    ⟨.nil, .none, Nat.le_refl 0⟩ left right
  refine alike.map fun _ _ answer => ?_
  cases answer <;> rfl

/-! ## Classes -/

theorem isInstanceWithin_succ {v v' : Value} (renamed : v.Renamed R v') (lacking : Prop) (n m : Nat)
    (found : ∀ t t', t.Renamed R t' → Results R lacking Eq (h.isInstanceWithin n v t)
      (h'.isInstanceWithin m v' t')) (t t' : Value) (named : t.Renamed R t') :
    Results R lacking Eq (h.isInstanceWithin (n + 1) v t) (h'.isInstanceWithin (m + 1) v' t') := by
  let refusal : Except Fault Bool :=
    .error (.typeError "isinstance() arg 2 must be a type, a tuple of types, or a union")
  have refused : Results R lacking Eq refusal refusal := .message _ _
  unfold Heap.isInstanceWithin
  cases named with
  | nan => exact refused
  | datum data =>
      cases t with
      | ref a => cases data
      | cls c =>
          dsimp only
          rw [twin.isSubclass, twin.typeOf renamed]
          exact .ok rfl
      | _ => exact refused
  | @ref a a' here =>
      have body := (twin.objects here).body
      dsimp only
      generalize (h.object a).body = x, (h'.object a').body = x' at body ⊢
      cases body with
      | @sequence kind _ _ items =>
          cases kind with
          | tuple =>
              refine List.rel_foldl (fun r r' start t t' renamed => ?_) (Results.ok rfl) items
              cases start with
              | error same => exact .error same
              | cut lacks => exact .cut lacks
              | @ok b _ same =>
                  cases same
                  cases b with
                  | true => exact .ok rfl
                  | false => exact found _ _ renamed
          | _ => exact refused
      | _ => exact refused

theorem isInstance {v v' t t' : Value} (renamed : v.Renamed R v') (named : t.Renamed R t') :
    Results R False Eq (h.isInstance v t) (h'.isInstance v' t') := by
  refine Results.settled (Value.Renamed R) (fun n => h.isInstanceWithin n v)
    (fun n => h'.isInstanceWithin n v') twin.ordered ?_ (fun _ => rfl) (fun _ => rfl)
    (twin.isInstanceWithin_succ renamed) h.residents ?_ (Nat.le_succ_of_le h.card_residents.le)
    (Nat.succ_le_succ twin.size) named
  · rintro _ _ _ rfl rfl
    rfl
  · intro n t _ _ out
    cases t with
    | ref a => simp only [Heap.isInstanceWithin, object_of_not_resident out, Object.blank]
    | _ => rfl

end Heap.Twin

end Assay
