import Assay.Proofs.Heap.Settlement
import Assay.Proofs.Likeness.Unfolding

/-! # Fields in turn

A comparison of two objects looks at the leaves among their fields first, and goes into composites
when all leaves are equal.  Another one takes the fields in turn, leaves and composites alike.  The
two enter composites at different times and may stop at different fields.

They find the same values alike.  Leaves enter nothing, so where all fields are alike both go into
the same composites in the same order; and any difference decides the whole comparison, wherever it
is found.
-/

namespace Assay

/-- The second comparison gives the answers that the first one gives, as far as they are wanted. -/
def Passes (Wanted : Option (List Address) → Prop)
    (like like' : List Address → Value → Value → Likeness) : Prop :=
  ∀ seen l r answer, Wanted answer → like seen l r = .ok answer → like' seen l r = .ok answer

/-- Compares the members of two composites, if there are any to be compared. -/
def likeMembers (like : List Address → Value → Value → Likeness) (seen : List Address) :
    Except Fault (Option (Walk (Value × Value))) → Likeness
  | .error e => .error e
  | .ok none => .ok none
  | .ok (some members) => likeEach like seen members

variable {Wanted : Option (List Address) → Prop}
  {like like' : List Address → Value → Value → Likeness} {seen : List Address}

theorem Passes.each (alike : ∀ s, Wanted (some s)) (passes : Passes Wanted like like')
    {members : Walk (Value × Value)} {answer : Option (List Address)} (wanted : Wanted answer)
    (first : likeEach like seen members = .ok answer) :
    likeEach like' seen members = .ok answer := by
  induction members generalizing seen with
  | nil => exact first
  | cons p rest ih =>
      cases p with
      | error e => cases first
      | ok pair =>
          obtain ⟨l, r⟩ := pair
          simp only [likeEach] at first ⊢
          split at first
          · rename_i s here
            rw [passes _ _ _ _ (alike s) here]
            exact ih first
          · rename_i differs
            rw [passes _ _ _ _ wanted first]
            cases answer with
            | none => rfl
            | some s => exact absurd first (differs s)

theorem Passes.members (alike : ∀ s, Wanted (some s)) (passes : Passes Wanted like like')
    {paired : Except Fault (Option (Walk (Value × Value)))} {answer : Option (List Address)}
    (wanted : Wanted answer) (first : likeMembers like seen paired = .ok answer) :
    likeMembers like' seen paired = .ok answer := by
  match paired with
  | .error e => exact first
  | .ok none => exact first
  | .ok (some members) => exact passes.each alike wanted first

namespace Heap

variable (h : Heap)

/-- The fields of two objects in pairs.  A name is looked up on the right when its turn comes. -/
def fieldsInTurn (a b : Address) : Except Fault (Option (Walk (Value × Value))) := do
  let ls ← h.fields a
  let rs ← h.fields b
  if ← membersEqual h.equal (ls.map (·.1)) (rs.map (·.1)) then
    return some (ls.map fun field => (h.find field.1.value rs).map (field.2, ·))
  else return none

/-- The members of two composites that have to be alike, with the fields of objects in turn. -/
def pairsInTurn : Shape → Shape → Except Fault (Option (Walk (Value × Value)))
  | .structured a, .structured b => h.fieldsInTurn a b
  | left, right => h.likePairs left right

/-- Likeness of values whose composites nest no deeper than the budget, given how the members of
    composites are paired. -/
def compareWithin (pairs : Shape → Shape → Except Fault (Option (Walk (Value × Value)))) :
    Nat → List Address → Value → Value → Likeness
  | 0, _, _, _ => .error .tooDeep
  | budget + 1, seen, l, r =>
    if h.typeOf l != h.typeOf r then .ok none
    else match (h.shape l).address? with
      | none => (h.leafEqual l r).map fun b => if b then some seen else none
      | some a =>
        match (h.shape r).address? with
        | none => .ok none
        | some b =>
          if seen.contains a || seen.contains b then .ok (if a == b then some seen else none)
          else likeMembers (compareWithin pairs budget) (enterComposite (enterComposite seen a) b)
            (pairs (h.shape l) (h.shape r))

/-- The comparison that takes fields in turn comes to an answer, given enough steps: `none` where
    the values differ, otherwise the composites entered so far. -/
def ComparesInTurn (seen : List Address) (l r : Value) (answer : Option (List Address)) : Prop :=
  ∃ budget, h.compareWithin h.pairsInTurn budget seen l r = .ok answer

variable {h} {pairs pairs' : Shape → Shape → Except Fault (Option (Walk (Value × Value)))}
  {n m : Nat} {last : List Address} {x y : Value}

theorem likeWithin_eq (budget : Nat) :
    h.likeWithin budget = h.compareWithin h.likePairs budget := by
  induction budget with
  | zero => rfl
  | succ budget ih =>
      funext seen l r
      simp only [likeWithin, compareWithin, ih]
      rfl

/-! ## Comparisons that give the same answers -/

/-- Comparisons that do the same with members do the same. -/
theorem compareWithin_passes (members : ∀ seen left right answer, Wanted answer →
      likeMembers (h.compareWithin pairs n) seen (pairs left right) = .ok answer →
      likeMembers (h.compareWithin pairs' m) seen (pairs' left right) = .ok answer) :
    Passes Wanted (h.compareWithin pairs (n + 1)) (h.compareWithin pairs' (m + 1)) := by
  intro seen l r answer wanted first
  simp only [compareWithin] at first ⊢
  split at first <;> rename_i types
  · rwa [if_pos types]
  · rw [if_neg types]
    split at first
    · exact first
    · split at first
      · exact first
      · split at first <;> rename_i met
        · rwa [if_pos met]
        · rw [if_neg met]
          exact members _ _ _ _ wanted first

/-- More steps change no answer. -/
theorem compareWithin_mono (le : n ≤ m) :
    Passes (fun _ => True) (h.compareWithin pairs n) (h.compareWithin pairs m) := by
  induction n generalizing m with
  | zero =>
      intro _ _ _ _ _ first
      cases first
  | succ n ih =>
      obtain ⟨m, rfl⟩ : ∃ k, m = k + 1 := ⟨m - 1, by omega⟩
      have fewer := ih (Nat.le_of_succ_le_succ le)
      exact compareWithin_passes fun _ _ _ _ _ => Passes.members (fun _ => trivial) fewer trivial

/-- Two answers that a comparison gives with enough steps are the same. -/
theorem compareWithin_unique {answer answer' : Option (List Address)}
    (first : h.compareWithin pairs n seen x y = .ok answer)
    (second : h.compareWithin pairs m seen x y = .ok answer') : answer = answer' := by
  have left := compareWithin_mono (Nat.le_max_left n m) _ _ _ _ trivial first
  have right := compareWithin_mono (Nat.le_max_right n m) _ _ _ _ trivial second
  exact Except.ok.inj (left.symm.trans right)

/-! ## Fields -/

theorem compareWithin_leaf (types : h.typeOf x = h.typeOf y) (leaf : h.isLeaf x) :
    h.compareWithin pairs (n + 1) seen x y =
      (h.leafEqual x y).map fun b => if b then some seen else none := by
  simp [compareWithin, types, isLeaf_iff.mp leaf]

theorem typeOf_of_compareWithin (alike : h.compareWithin pairs n seen x y = .ok (some last)) :
    h.typeOf x = h.typeOf y := by
  cases n with
  | zero => cases alike
  | succ n =>
      simp only [compareWithin] at alike
      split at alike <;> rename_i types
      · cases alike
      · simpa using types

/-- A field is passed by if it is a leaf, and it is left for later otherwise. -/
theorem pendingFields_cons {rs rest : List (Key × Value)} {name : Key} {l : Value}
    {ps : List (Value × Value)} :
    h.pendingFields rs ((name, l) :: rest) = .ok (some ps) ↔
      ∃ r, h.find name.value rs = .ok r ∧ h.typeOf l = h.typeOf r ∧
        (h.isLeaf l ∧ h.leafEqual l r = .ok true ∧ h.pendingFields rs rest = .ok (some ps) ∨
          ¬ h.isLeaf l ∧ ∃ later, ps = (l, r) :: later ∧
            h.pendingFields rs rest = .ok (some later)) := by
  rw [pendingFields]
  cases found : h.find name.value rs with
  | error e => simp
  | ok r =>
      by_cases types : h.typeOf l = h.typeOf r
      · by_cases leaf : h.isLeaf l
        · cases equal : h.leafEqual l r with
          | error e => simp [types, leaf, equal]
          | ok b => cases b <;> simp [types, leaf, equal]
        · cases others : h.pendingFields rs rest with
          | error e => simp [types, leaf, Except.map]
          | ok later => cases later <;> simp [types, leaf, Except.map, eq_comm]
      · simp [types]

/-- What is alike with the leaves first is alike with fields in turn. -/
theorem likeEach_fields (passes : Passes (·.isSome) like (h.compareWithin pairs (n + 1)))
    {ls rs : List (Key × Value)} {ps : List (Value × Value)}
    (passed : h.pendingFields rs ls = .ok (some ps))
    (alike : likeEach like seen (ps.map .ok) = .ok (some last)) :
    likeEach (h.compareWithin pairs (n + 1)) seen
      (ls.map fun field => (h.find field.1.value rs).map (field.2, ·)) = .ok (some last) := by
  induction ls generalizing ps seen with
  | nil =>
      cases passed
      exact alike
  | cons field rest ih =>
      obtain ⟨name, l⟩ := field
      obtain ⟨r, found, types, here⟩ := pendingFields_cons.mp passed
      simp only [List.map_cons, found, Except.map, likeEach]
      rcases here with ⟨leaf, equal, others⟩ | ⟨_, later, rfl, others⟩
      · simp only [compareWithin_leaf types leaf, equal, Except.map, if_true]
        exact ih others alike
      · simp only [List.map_cons, likeEach] at alike
        split at alike
        · rename_i s first
          rw [passes _ _ _ _ rfl first]
          exact ih others alike
        · rename_i differs
          exact absurd alike (differs last)

/-- What is alike with fields in turn is alike with the leaves first. -/
theorem pendingFields_of_likeEach (passes : Passes (·.isSome) (h.compareWithin pairs n) like)
    {ls rs : List (Key × Value)} (alike : likeEach (h.compareWithin pairs n) seen
      (ls.map fun field => (h.find field.1.value rs).map (field.2, ·)) = .ok (some last)) :
    ∃ ps, h.pendingFields rs ls = .ok (some ps) ∧
      likeEach like seen (ps.map .ok) = .ok (some last) := by
  induction ls generalizing seen with
  | nil => exact ⟨[], rfl, alike⟩
  | cons field rest ih =>
      obtain ⟨name, l⟩ := field
      cases found : h.find name.value rs with
      | error e => simp [found, Except.map, likeEach] at alike
      | ok r =>
          simp only [List.map_cons, found, Except.map, likeEach] at alike
          split at alike
          · rename_i s first
            have types := typeOf_of_compareWithin first
            obtain ⟨later, others, each⟩ := ih alike
            by_cases leaf : h.isLeaf l
            · -- A leaf that is equal enters nothing.
              obtain ⟨n, rfl⟩ : ∃ k, n = k + 1 := by
                cases n with
                | zero => cases first
                | succ k => exact ⟨k, rfl⟩
              rw [compareWithin_leaf types leaf] at first
              cases equal : h.leafEqual l r with
              | error e => simp [equal, Except.map] at first
              | ok b =>
                  cases b with
                  | false => simp [equal, Except.map] at first
                  | true =>
                      obtain rfl : seen = s := by simpa [equal, Except.map] using first
                      refine ⟨later, pendingFields_cons.mpr ⟨r, found, types, ?_⟩, each⟩
                      exact .inl ⟨leaf, equal, others⟩
            · refine ⟨(l, r) :: later, pendingFields_cons.mpr ⟨r, found, types, ?_⟩, ?_⟩
              · exact .inr ⟨leaf, later, rfl, others⟩
              · simpa only [List.map_cons, likeEach, passes _ _ _ _ rfl first] using each
          · rename_i differs
            exact absurd alike (differs last)

/-! ## The two comparisons -/

variable {a b : Address}

/-- Two objects are alike if they have the same names and their fields are alike. -/
theorem likeMembers_structured :
    likeMembers like seen (h.likePairs (.structured a) (.structured b)) = .ok (some last) ↔
      ∃ ls rs, h.fields a = .ok ls ∧ h.fields b = .ok rs ∧
        membersEqual h.equal (ls.map (·.1)) (rs.map (·.1)) = .ok true ∧
        ∃ ps, h.pendingFields rs ls = .ok (some ps) ∧
          likeEach like seen (ps.map .ok) = .ok (some last) := by
  simp only [likePairs, fieldPairs, bind, Except.bind]
  cases h.fields a with
  | error e => simp [Except.map, likeMembers]
  | ok ls =>
      cases h.fields b with
      | error e => simp [Except.map, likeMembers]
      | ok rs =>
          cases names : membersEqual h.equal (ls.map (·.1)) (rs.map (·.1)) with
          | error e => simp [Except.map, likeMembers, names]
          | ok same =>
              cases same with
              | false => simp [Except.map, likeMembers, names, pure, Except.pure]
              | true =>
                  cases left : h.pendingFields rs ls with
                  | error e => simp [Except.map, likeMembers, names, left]
                  | ok ps => cases ps <;> simp [Except.map, likeMembers, names, left]

theorem likeMembers_inTurn :
    likeMembers like seen (h.pairsInTurn (.structured a) (.structured b)) = .ok (some last) ↔
      ∃ ls rs, h.fields a = .ok ls ∧ h.fields b = .ok rs ∧
        membersEqual h.equal (ls.map (·.1)) (rs.map (·.1)) = .ok true ∧
        likeEach like seen (ls.map fun field => (h.find field.1.value rs).map (field.2, ·)) =
          .ok (some last) := by
  simp only [pairsInTurn, fieldsInTurn, bind, Except.bind]
  cases h.fields a with
  | error e => simp [likeMembers]
  | ok ls =>
      cases h.fields b with
      | error e => simp [likeMembers]
      | ok rs =>
          cases names : membersEqual h.equal (ls.map (·.1)) (rs.map (·.1)) with
          | error e => simp [likeMembers, names]
          | ok same => cases same <;> simp [likeMembers, names, pure, Except.pure]

/-- Only objects have fields to be taken in turn. -/
theorem pairsInTurn_cases (left right : Shape) :
    (∃ a b, left = .structured a ∧ right = .structured b) ∨
      h.pairsInTurn left right = h.likePairs left right := by
  cases left with
  | structured a =>
      cases right with
      | structured b => exact .inl ⟨a, b, rfl, rfl⟩
      | leaf | sequence | mapping => exact .inr rfl
  | leaf | sequence | mapping => exact .inr rfl

/-- What is alike with the leaves first is alike with fields in turn, which takes a step more for
    the leaves. -/
theorem passes_inTurn (n : Nat) : Passes (·.isSome) (h.compareWithin h.likePairs n)
    (h.compareWithin h.pairsInTurn (n + 1)) := by
  induction n with
  | zero =>
      intro _ _ _ _ _ first
      cases first
  | succ n ih =>
      refine compareWithin_passes fun seen left right answer wanted first => ?_
      rcases h.pairsInTurn_cases left right with ⟨a, b, rfl, rfl⟩ | same
      · obtain ⟨last, rfl⟩ := Option.isSome_iff_exists.mp wanted
        obtain ⟨ls, rs, own, own', names, ps, passed, each⟩ := likeMembers_structured.mp first
        exact likeMembers_inTurn.mpr ⟨ls, rs, own, own', names, likeEach_fields ih passed each⟩
      · rw [same]
        exact ih.members (fun _ => rfl) wanted first

/-- What is alike with fields in turn is alike with the leaves first. -/
theorem passes_leavesFirst (n : Nat) : Passes (·.isSome) (h.compareWithin h.pairsInTurn n)
    (h.compareWithin h.likePairs n) := by
  induction n with
  | zero =>
      intro _ _ _ _ _ first
      cases first
  | succ n ih =>
      refine compareWithin_passes fun seen left right answer wanted first => ?_
      rcases h.pairsInTurn_cases left right with ⟨a, b, rfl, rfl⟩ | same
      · obtain ⟨last, rfl⟩ := Option.isSome_iff_exists.mp wanted
        obtain ⟨ls, rs, own, own', names, each⟩ := likeMembers_inTurn.mp first
        obtain ⟨ps, passed, each⟩ := pendingFields_of_likeEach ih each
        exact likeMembers_structured.mpr ⟨ls, rs, own, own', names, ps, passed, each⟩
      · rw [same] at first
        exact ih.members (fun _ => rfl) wanted first

/-- Whatever has been entered before, two values are alike with the leaves first exactly if they are
    alike with fields in turn, and then both have entered the same.  Where both comparisons come to
    an answer, it is the same. -/
theorem like_inTurn (h : Heap) (seen : List Address) (l r : Value) :
    (∀ last, (∃ budget, h.likeWithin budget seen l r = .ok (some last)) ↔
      h.ComparesInTurn seen l r (some last)) ∧
    ∀ alike answer, h.likeFrom seen l r = .ok alike → h.ComparesInTurn seen l r answer →
      alike = answer.isSome := by
  have both (last : List Address) :
      (∃ budget, h.likeWithin budget seen l r = .ok (some last)) ↔
        h.ComparesInTurn seen l r (some last) := by
    constructor
    · rintro ⟨n, first⟩
      rw [likeWithin_eq] at first
      exact ⟨n + 1, passes_inTurn n _ _ _ _ rfl first⟩
    · rintro ⟨n, first⟩
      exact ⟨n, likeWithin_eq n ▸ passes_leavesFirst n _ _ _ _ rfl first⟩
  refine ⟨both, fun alike answer returned turned => ?_⟩
  cases first : h.likeWithin (h.objects.size + 1) seen l r with
  | error e => simp [likeFrom, first, Except.map] at returned
  | ok own =>
      have alike_eq : own.isSome = alike := by simpa [likeFrom, first, Except.map] using returned
      rw [← alike_eq]
      -- A difference that one of the two finds cannot be missed by the other one.
      cases own with
      | some last =>
          obtain ⟨m, turned⟩ := turned
          obtain ⟨n, other⟩ := (both last).mp ⟨_, first⟩
          rw [compareWithin_unique turned other]
      | none =>
          cases answer with
          | none => rfl
          | some last =>
              obtain ⟨n, other⟩ := (both last).mpr turned
              rw [likeWithin_eq] at first other
              cases compareWithin_unique first other

/-- Nodes that lead to a list that holds itself, in front of a number. -/
def forks : Heap where
  classes := Standard.classes Sample.classes
  objects :=
    let node (n : Int) : Object := { cls := "Node", attrs := [("next", .ref 3), ("n", .int n)] }
    #[node 1, node 2, node 1, { cls := "list", body := .sequence .list [.ref 3] }]

/-- With the leaves first the numbers of two nodes are unequal before the list is entered.  Two
    nodes with one number are alike, and both ways the list has been entered. -/
theorem like_inTurn_forks :
    (forks.likeFrom [] (.ref 0) (.ref 1) = .ok false ∧
      forks.ComparesInTurn [] (.ref 0) (.ref 1) none ∧
      false = (none : Option (List Address)).isSome) ∧
    (∃ budget, forks.likeWithin budget [] (.ref 0) (.ref 2) = .ok (some [0, 2, 3])) ∧
      forks.ComparesInTurn [] (.ref 0) (.ref 2) (some [0, 2, 3]) := by
  have unlike : forks.likeFrom [] (.ref 0) (.ref 1) = .ok false := by decide +kernel
  have turned : forks.ComparesInTurn [] (.ref 0) (.ref 1) none := ⟨4, by decide +kernel⟩
  have alike : ∃ budget, forks.likeWithin budget [] (.ref 0) (.ref 2) = .ok (some [0, 2, 3]) :=
    ⟨4, by decide +kernel⟩
  exact ⟨⟨unlike, turned, (like_inTurn forks [] (.ref 0) (.ref 1)).2 _ _ unlike turned⟩, alike,
    ((like_inTurn forks [] (.ref 0) (.ref 2)).1 _).mp alike⟩

end Heap

end Assay
