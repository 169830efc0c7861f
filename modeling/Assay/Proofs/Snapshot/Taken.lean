import Assay.Proofs.Heap.Entered
import Assay.Snapshot.Build

/-! # Values of which snapshots can be taken

A snapshot is taken by walking through a value.  Where every composite that the walk comes by tells
its members, and the labels under which they are shown can be told apart, the walk comes to its end:
each composite is entered once, so the walk goes no deeper than there are objects.
-/

namespace Assay

/-- The values that a member holds. -/
def Part.values : Part → List Value
  | .item _ v | .field _ v => [v]
  | .entry k v => [k, v]

namespace Heap

variable (h : Heap)

/-- The members that a value has, all of which are told. -/
def HasParts (u : Value) (ps : List Part) : Prop := h.parts (h.shape u) = .ok (ps.map .ok)

/-- A member is shown under a label. -/
def Labels (key : Key) : Part → Prop
  | .item i _ => key = .plain (itemLabel i)
  | .entry k _ => ∃ text, h.repr k = .ok text ∧ key = .plain (entryLabel text)
  | .field name _ => h.key name = .ok key

/-- A value tells its members, and what they are shown under.  Names of fields can be told apart. -/
structure Tells (u : Value) : Prop where
  live : ∀ a, (h.shape u).address? = some a → a < h.objects.size
  members : ∃ ps, h.HasParts u ps
  labels : ∀ ps, h.HasParts u ps → ∀ p ∈ ps, ∃ key, h.Labels key p
  names : ∀ ps, h.HasParts u ps → ∀ n x n' x', .field n x ∈ ps → .field n' x' ∈ ps →
    ∀ key key', h.key n = .ok key → h.key n' = .ok key' → ∃ b, key.isFor h.equal key' = .ok b

/-- A walk through a value comes by another one. -/
inductive PassesBy (v : Value) : Value → Prop where
  | self : PassesBy v v
  | member {u ps p x} : PassesBy v u → h.HasParts u ps → p ∈ ps → x ∈ p.values → PassesBy v x

/-- Everything that a walk through a value comes by tells its members. -/
def Enumerates (v : Value) : Prop := ∀ u, h.PassesBy v u → h.Tells u

variable {h}

theorem PassesBy.trans {v u x : Value} (first : h.PassesBy v u) (second : h.PassesBy u x) :
    h.PassesBy v x := by
  induction second with
  | self => exact first
  | member _ members present inside ih => exact .member ih members present inside

theorem Enumerates.member {v x : Value} {ps : List Part} {p : Part} (enumerates : h.Enumerates v)
    (members : h.HasParts v ps) (present : p ∈ ps) (inside : x ∈ p.values) : h.Enumerates x :=
  fun u passes => enumerates u ((PassesBy.self.member members present inside).trans passes)

theorem enumerates_leaf {v : Value} (leaf : h.shape v = .leaf) : h.Enumerates v := by
  have none (ps : List Part) (members : h.HasParts v ps) : ps = [] := by
    unfold HasParts parts at members
    rw [leaf] at members
    exact List.map_eq_nil_iff.mp (Except.ok.inj members).symm
  have tells : h.Tells v :=
    { live := fun a address => by rw [leaf] at address; cases address
      members := ⟨[], by unfold HasParts parts; rw [leaf]; rfl⟩
      labels := fun ps members p present => by rw [none ps members] at present; cases present
      names := fun ps members n x n' x' present => by
        rw [none ps members] at present
        cases present }
  intro u passes
  have here : u = v := by
    induction passes with
    | self => rfl
    | @member u ps _ _ _ members present _ ih =>
        have gone : ps = [] := none ps (ih ▸ members)
        rw [gone] at present
        cases present
  exact here ▸ tells

/-! ## Labels -/

theorem equal_texts (s t : String) : h.equal (.text s) (.text t) = .ok (s == t) := by
  have first : h.asksRightFirst (.text s) (.text t) = false := by simp [asksRightFirst, typeOf]
  have opinion (eq : Comparison) : h.opinion eq (.text s) (.text t) = .ok (some (s == t)) := rfl
  unfold equal equalWithin
  simp only [first, opinion, Bool.false_eq_true, if_false]

theorem isFor_texts (s t : String) :
    (Key.plain (.text s)).isFor h.equal (.plain (.text t)) = .ok (s == t) := by
  by_cases same : s = t
  · subst same
    simp [Key.isFor, sameOr]
  · have apart : ¬ t = s := fun one => same one.symm
    have answer : (s == t) = false := by simpa using same
    unfold Key.isFor sameOr
    simp [Key.plain, equal_texts, apart, answer]

theorem mem_itemsFrom {p : Part} {start : Nat} {items : List Value}
    (present : p ∈ itemsFrom start items) : ∃ i x, p = .item i x := by
  induction items generalizing start with
  | nil => cases present
  | cons x rest ih =>
      rcases List.mem_cons.mp present with here | later
      · exact ⟨_, _, here⟩
      · exact ih later

/-- Either all members of a value are fields, or all of them are shown under texts. -/
theorem HasParts.alike {u : Value} {ps : List Part} (members : h.HasParts u ps) :
    (∀ p ∈ ps, ∃ n x, p = .field n x) ∨
      ∀ p ∈ ps, ∀ key, h.Labels key p → ∃ s, key = .plain (.text s) := by
  unfold HasParts parts at members
  cases shape : h.shape u with
  | leaf =>
      simp only [shape, Except.ok.injEq] at members
      exact .inr fun p present => by simp [List.map_eq_nil_iff.mp members.symm] at present
  | sequence a items =>
      simp only [shape, Except.ok.injEq] at members
      refine .inr fun p present key label => ?_
      have listed : Except.ok (ε := Fault) p ∈ ps.map .ok := List.mem_map_of_mem present
      rw [← members] at listed
      obtain ⟨p', present', same⟩ := List.mem_map.mp listed
      cases same
      obtain ⟨i, x, rfl⟩ := mem_itemsFrom present'
      exact ⟨_, label⟩
  | mapping a kind entries =>
      simp only [shape, Except.ok.injEq] at members
      refine .inr fun p present key label => ?_
      have listed : Except.ok (ε := Fault) p ∈ ps.map .ok := List.mem_map_of_mem present
      rw [← members] at listed
      obtain ⟨entry, _, same⟩ := List.mem_map.mp listed
      cases entry with
      | error e => cases same
      | ok entry =>
          cases same
          obtain ⟨text, _, rfl⟩ := label
          exact ⟨_, rfl⟩
  | structured a =>
      simp only [shape] at members
      refine .inl fun p present => ?_
      cases shared : h.sharedFields a with
      | error e => simp [shared] at members
      | ok shared' =>
          cases own : h.fields a with
          | error e => simp [shared, own, Except.map] at members
          | ok own' =>
              simp only [shared, own, Except.map, Except.ok.injEq] at members
              have listed : Except.ok (ε := Fault) p ∈ ps.map .ok := List.mem_map_of_mem present
              rw [← members] at listed
              obtain ⟨_, _, same⟩ := List.mem_map.mp listed
              cases same
              exact ⟨_, _, rfl⟩

theorem Tells.isFor {u : Value} (tells : h.Tells u) {ps : List Part} (members : h.HasParts u ps)
    {p p' : Part} (present : p ∈ ps) (present' : p' ∈ ps) {key key' : Key}
    (labels : h.Labels key p) (labels' : h.Labels key' p') :
    ∃ b, key.isFor h.equal key' = .ok b := by
  rcases members.alike with fields | texts
  · obtain ⟨n, x, rfl⟩ := fields p present
    obtain ⟨n', x', rfl⟩ := fields p' present'
    exact tells.names ps members n x n' x' present present' key key' labels labels'
  · obtain ⟨s, rfl⟩ := texts p present key labels
    obtain ⟨s', rfl⟩ := texts p' present' key' labels'
    exact ⟨_, isFor_texts s s'⟩

/-! ## Children -/

/-- A label that can be told apart from those that are there can be entered. -/
theorem enter_ok {κ ν ε : Type} (isKey : κ → Except ε Bool) (key : κ) (x : ν) (es : List (κ × ν))
    (apart : ∀ e ∈ es, ∃ b, isKey e.1 = .ok b) : ∃ es', Entries.enter isKey key x es = .ok es' ∧
      ∀ e ∈ es', e.1 = key ∨ ∃ e₀ ∈ es, e.1 = e₀.1 := by
  induction es with
  | nil => exact ⟨_, rfl, by simp⟩
  | cons e rest ih =>
      obtain ⟨k, y⟩ := e
      obtain ⟨b, found⟩ := apart (k, y) (by simp)
      cases b with
      | true =>
          refine ⟨(k, x) :: rest, by simp [Entries.enter, found], fun e present => .inr ?_⟩
          rcases List.mem_cons.mp present with rfl | later
          · exact ⟨(k, y), by simp, rfl⟩
          · exact ⟨e, by simp [later], rfl⟩
      | false =>
          obtain ⟨es', entered, labels⟩ := ih fun e present => apart e (by simp [present])
          refine ⟨(k, y) :: es', by simp [Entries.enter, found, entered, Except.map],
            fun e present => ?_⟩
          rcases List.mem_cons.mp present with rfl | later
          · exact .inr ⟨(k, y), by simp, rfl⟩
          · exact (labels e later).imp_right fun ⟨e₀, old, same⟩ => ⟨e₀, by simp [old], same⟩

/-- Children whose labels can be told apart can be kept under them. -/
theorem labelled_ok (built : List (Key × Snapshot))
    (apart : ∀ e ∈ built, ∀ e' ∈ built, ∃ b, e.1.isFor h.equal e'.1 = .ok b) :
    ∃ children, h.labelled built = .ok children := by
  have filed (later : List (Key × Snapshot)) (children : List (Key × Snapshot))
      (among : ∀ e ∈ later, e ∈ built) (labels : ∀ e ∈ children, ∃ e' ∈ built, e.1 = e'.1) :
      ∃ children', later.foldlM (fun children e =>
        Entries.enter (e.1.isFor h.equal) e.1 e.2 children) children = .ok children' := by
    induction later generalizing children with
    | nil => exact ⟨children, rfl⟩
    | cons e rest ih =>
        obtain ⟨label, s⟩ := e
        have present : (label, s) ∈ built := among _ (by simp)
        obtain ⟨entered, enters, kept⟩ :=
          enter_ok (label.isFor h.equal) label s children fun e inside => by
            obtain ⟨e', present', same⟩ := labels e inside
            rw [same]
            exact apart _ present _ present'
        obtain ⟨children', rest⟩ := ih entered (fun e later => among e (by simp [later]))
          fun e inside => by
            rcases kept e inside with new | ⟨e₀, old, same⟩
            · exact ⟨_, present, new⟩
            · rw [same]
              exact labels e₀ old
        refine ⟨children', ?_⟩
        rw [List.foldlM_cons]
        show (Entries.enter _ _ _ _ >>= _) = _
        rw [enters]
        exact rest
  exact filed built [] (fun _ => id) (by simp)

/-! ## The walk -/

variable (h) in
/-- A step of a walk comes to its end, and what had been entered before still counts. -/
def Completes {α : Type} (seen : List Address) (o : List Address × Except Fault α)
    (result : α → Prop) : Prop :=
  ∃ seen' x, o = (seen', .ok x) ∧ h.Entered seen' ∧ seen.length ≤ seen'.length ∧ result x

variable (h) in
/-- How members are built, as long as the budget is enough. -/
def Builds (build : List Address → Value → Value → List Address × Except Fault Snapshot)
    (budget : Nat) : Prop :=
  ∀ seen label v, h.Enumerates v → h.Entered seen → h.Enough budget seen →
    h.Completes seen (build seen label v) fun _ => True

variable {build : List Address → Value → Value → List Address × Except Fault Snapshot}
  {budget : Nat} {seen : List Address}

theorem buildPart_completes (builds : h.Builds build budget) {p : Part}
    (enumerates : ∀ x ∈ p.values, h.Enumerates x) (labelled : ∃ key, h.Labels key p)
    (entered : h.Entered seen) (enough : h.Enough budget seen) :
    h.Completes seen (h.buildPart build seen p) fun child => h.Labels child.1 p := by
  obtain ⟨key, label⟩ := labelled
  cases p with
  | item i v =>
      obtain ⟨seen₁, s, built, entered₁, more, _⟩ :=
        builds seen (itemLabel i) v (enumerates v (by simp [Part.values])) entered enough
      exact ⟨seen₁, (.plain (itemLabel i), s), by simp only [buildPart, built]; rfl, entered₁, more,
        rfl⟩
  | field name v =>
      obtain ⟨seen₁, s, built, entered₁, more, _⟩ :=
        builds seen name v (enumerates v (by simp [Part.values])) entered enough
      have named : h.key name = .ok key := label
      exact ⟨seen₁, (key, s), by simp only [buildPart, built, named]; rfl, entered₁, more, label⟩
  | entry k v =>
      obtain ⟨text, told, _⟩ := label
      obtain ⟨seen₁, s, built, entered₁, more, _⟩ :=
        builds seen (.text "key") k (enumerates k (by simp [Part.values])) entered enough
      obtain ⟨seen₂, s', built', entered₂, more', _⟩ :=
        builds seen₁ (.text "value") v (enumerates v (by simp [Part.values])) entered₁
          (enough.later more)
      exact ⟨seen₂, _, by simp only [buildPart, told, built, built']; rfl, entered₂,
        Nat.le_trans more more', text, told, rfl⟩

theorem walkEach_completes (builds : h.Builds build budget) {ps : List Part}
    (enumerates : ∀ p ∈ ps, ∀ x ∈ p.values, h.Enumerates x)
    (labelled : ∀ p ∈ ps, ∃ key, h.Labels key p) (entered : h.Entered seen)
    (enough : h.Enough budget seen) :
    h.Completes seen (walkEach (h.buildPart build) seen (ps.map .ok)) fun children =>
      ∀ child ∈ children, ∃ p ∈ ps, h.Labels child.1 p := by
  induction ps generalizing seen with
  | nil => exact ⟨seen, [], rfl, entered, Nat.le_refl _, by simp⟩
  | cons p rest ih =>
      obtain ⟨seen₁, child, built, entered₁, more, label⟩ := buildPart_completes builds
        (enumerates p (by simp)) (labelled p (by simp)) entered enough
      obtain ⟨seen₂, children, walked, entered₂, more', labels⟩ := ih
        (fun p later => enumerates p (by simp [later]))
        (fun p later => labelled p (by simp [later])) entered₁ (enough.later more)
      refine ⟨seen₂, child :: children, ?_, entered₂, Nat.le_trans more more', fun c present => ?_⟩
      · simp only [List.map_cons, walkEach, built, walked]
        rfl
      · rcases List.mem_cons.mp present with rfl | later
        · exact ⟨p, by simp, label⟩
        · obtain ⟨p', present', label'⟩ := labels c later
          exact ⟨p', by simp [present'], label'⟩

/-- A walk with a budget that is enough comes to its end. -/
theorem builds_buildWithin (h : Heap) (budget : Nat) : h.Builds (h.buildWithin budget) budget := by
  induction budget with
  | zero =>
      intro seen label v _ entered enough
      obtain ⟨_, more⟩ := enough.pos entered
      cases more
  | succ budget ih =>
      intro seen label v enumerates entered enough
      have tells := enumerates v .self
      cases address : (h.shape v).address? with
      | none =>
          exact ⟨seen, _, by simp only [buildWithin, address]; rfl, entered, Nat.le_refl _, trivial⟩
      | some a =>
          by_cases present : a ∈ seen
          · exact ⟨seen, _, by simp [buildWithin, address, present]; rfl, entered,
              Nat.le_refl _, trivial⟩
          · obtain ⟨ps, members⟩ := tells.members
            have now := entered.enter present (tells.live a address)
            have still : h.Enough budget (seen ++ [a]) := enough.down (by simp)
            obtain ⟨seen₁, children, walked, entered₁, more, labels⟩ := walkEach_completes ih
              (fun p present x inside => enumerates.member members present inside)
              (tells.labels ps members) now still
            obtain ⟨kept, filed⟩ := labelled_ok (h := h) children
              fun e inside e' inside' => by
                obtain ⟨p, present, label⟩ := labels e inside
                obtain ⟨p', present', label'⟩ := labels e' inside'
                exact tells.isFor members present present' label label'
            have told : h.parts (h.shape v) = .ok (ps.map .ok) := members
            refine ⟨seen₁, .node { label, type := h.typeOf v, isLeaf := false, identity := some a }
              kept, ?_, entered₁, Nat.le_trans (by simp) more, trivial⟩
            simp only [buildWithin, address, List.contains_eq_mem, present, decide_false,
              Bool.false_eq_true, if_false, told, walked, Except.bind, filed, Except.map]

/-- A snapshot can be taken of a value if everything that a walk through it comes by tells its
    members. -/
theorem snapshot_ok {v : Value} (enumerates : h.Enumerates v) : ∃ s, h.snapshot v = .ok s := by
  obtain ⟨_, s, built, _⟩ := h.builds_buildWithin (h.objects.size + 1) [] .null v enumerates
    .none .start
  exact ⟨s, by rw [snapshot, buildSnapshot, built]⟩

end Heap

end Assay
