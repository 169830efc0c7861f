import Assay.Proofs.Heap.Settlement
import Assay.Proofs.Likeness.Unfolding
import Assay.Proofs.Snapshot.Taken

/-! # What snapshots show

A snapshot that has been taken is read back: a leaf shows what its value keeps, a composite that was
met before shows nothing but itself, and every other one shows each of its members under its label.
What leaves keep is compared as the leaves themselves are.
-/

namespace Assay

/-- What a value is made of. -/
inductive Form where
  | datum
  /-- A member of an enumeration. -/
  | member
  | plain
  | sequence
  | mapping
  | members
  | octets
  | error
  deriving DecidableEq, Repr

/-- What kind of value has such a member. -/
def Part.kind : Part → Kind
  | .item _ _ => .sequence
  | .entry _ _ => .mapping
  | .field _ _ => .structured

namespace Heap

def form (h : Heap) : Value → Form
  | .ref a =>
    match (h.object a).body with
    | .plain => .plain
    | .sequence _ _ => .sequence
    | .mapping _ _ => .mapping
    | .members _ _ => .members
    | .octets _ => .octets
    | .error _ => .error
  | .member _ => .member
  | _ => .datum

variable {h : Heap} {x y : Value}

theorem kind_eq (types : h.typeOf x = h.typeOf y) (forms : h.form x = h.form y) :
    h.kind x = h.kind y := by
  cases x with
  | ref a =>
      cases y with
      | ref b =>
          have cls : (h.object a).cls = (h.object b).cls := types
          simp only [form] at forms
          cases body : (h.object a).body <;> cases body' : (h.object b).body <;>
            simp_all only [kind, shape, Shape.kind, reduceCtorEq]
          cases h.hasFieldSource (h.object b).cls <;> rfl
      | _ => cases body : (h.object a).body <;> simp [form, body] at forms
  | _ =>
      cases y with
      | ref b => cases body : (h.object b).body <;> simp [form, body] at forms
      | _ => rfl

/-! ## What leaves keep -/

theorem equal_members {a b : Address} {frozen frozen' same : Bool} {xs ys : List Key}
    (plain : (h.classes "object").equality = .identity)
    (types : (h.object a).cls = (h.object b).cls) (body : (h.object a).body = .members frozen xs)
    (body' : (h.object b).body = .members frozen' ys) :
    h.equal (.ref a) (.ref b) = .ok same ↔ membersEqual h.equal xs ys = .ok same := by
  rw [← answer_equal plain]
  have first : h.asksRightFirst (.ref a) (.ref b) = false := by
    simp [asksRightFirst, typeOf, types]
  have opinion : h.opinion h.equal (.ref a) (.ref b) =
      (membersEqual h.equal xs ys).map some := by
    show h.objectOpinion h.equal a (.ref b) = _
    rcases object : h.object b with ⟨_, _, _, _⟩
    rw [object] at body'
    subst body'
    simp only [objectOpinion, body, object]
  simp only [answer, first, Bool.false_eq_true, if_false, opinion]
  cases membersEqual h.equal xs ys <;> simp [Except.map]

theorem equal_octets {a b : Address} {bs cs : List UInt8}
    (types : (h.object a).cls = (h.object b).cls) (body : (h.object a).body = .octets bs)
    (body' : (h.object b).body = .octets cs) :
    h.equal (.ref a) (.ref b) = h.equal (.bytes bs) (.bytes cs) := by
  have first : h.asksRightFirst (.ref a) (.ref b) = false := by
    simp [asksRightFirst, typeOf, types]
  have first' : h.asksRightFirst (.bytes bs) (.bytes cs) = false := by
    simp [asksRightFirst, typeOf]
  have opinion (eq : Comparison) : h.opinion eq (.ref a) (.ref b) = .ok (some (bs == cs)) := by
    show h.objectOpinion eq a (.ref b) = _
    rcases object : h.object b with ⟨_, _, _, _⟩
    rw [object] at body'
    subst body'
    simp only [objectOpinion, body, object]
  have opinion' (eq : Comparison) :
      h.opinion eq (.bytes bs) (.bytes cs) = .ok (some (bs == cs)) := rfl
  simp only [equal, equalWithin_succ, answer, first, first', opinion, opinion',
    Bool.false_eq_true, if_false]

/-- Leaves of one class and one form are equal exactly if they keep the same. -/
theorem contentEqual_freeze {same : Bool} (plain : (h.classes "object").equality = .identity)
    (types : h.typeOf x = h.typeOf y) (forms : h.form x = h.form y) :
    h.contentEqual (h.freeze x) (h.freeze y) = .ok same ↔ h.leafEqual x y = .ok same := by
  cases x with
  | ref a =>
      cases y with
      | ref b =>
          have cls : (h.object a).cls = (h.object b).cls := types
          simp only [form] at forms
          cases body : (h.object a).body with
          | members frozen xs =>
              cases body' : (h.object b).body with
              | members frozen' ys =>
                  simp only [freeze, body, body', contentEqual]
                  exact (equal_members plain cls body body').symm
              | _ => simp [body, body'] at forms
          | octets bs =>
              cases body' : (h.object b).body with
              | octets cs =>
                  simp only [freeze, body, body', contentEqual, leafEqual]
                  rw [equal_octets cls body body']
              | _ => simp [body, body'] at forms
          | _ =>
              cases body' : (h.object b).body with
              | members frozen' ys => simp [body, body'] at forms
              | octets cs => simp [body, body'] at forms
              | _ => simp only [freeze, body, body', contentEqual]
      | _ => cases body : (h.object a).body <;> simp [form, body] at forms
  | _ =>
      cases y with
      | ref b => cases body : (h.object b).body <;> simp [form, body] at forms
      | _ => rfl

/-! ## What the walk has done -/

/-- How a mapping entry is shown, given how its key and its value are. -/
def entryNode (text : String) (s t : Snapshot) : Snapshot :=
  .node { label := entryLabel text, type := entryClass, isLeaf := false }
    [(.text "key", s), (.text "value", t)]

variable (h) in
/-- A member and the child that shows it. -/
inductive Depicts (P : Value → Snapshot → Prop) : Part → Key × Snapshot → Prop where
  | item {i v s} : P v s → Depicts P (.item i v) (.plain (itemLabel i), s)
  | field {n v key s} : h.key n = .ok key → P v s → Depicts P (.field n v) (key, s)
  | entry {k v text s t} : h.repr k = .ok text → P k s → P v t →
      Depicts P (.entry k v) (.plain (entryLabel text), entryNode text s t)

variable (h) in
/-- A snapshot has been taken of a value where some composites had been entered before. -/
def Pictures (v : Value) (s : Snapshot) : Prop :=
  ∃ budget seen label seen', h.buildWithin budget seen label v = (seen', .ok s)

variable (h) in
/-- A snapshot has been taken of a value that nests no deeper than the budget. -/
def PicturesWithin (budget : Nat) (v : Value) (s : Snapshot) : Prop :=
  ∃ seen label seen', h.buildWithin budget seen label v = (seen', .ok s)

variable (h) in
/-- A member has been shown, from what had been entered before to what has been entered then. -/
inductive Shown (budget : Nat) (seen : List Address) :
    Part → List Address → Key × Snapshot → Prop where
  | item {i v last s} : h.buildWithin budget seen (itemLabel i) v = (last, .ok s) →
      Shown budget seen (.item i v) last (.plain (itemLabel i), s)
  | field {n v last s key} : h.buildWithin budget seen n v = (last, .ok s) → h.key n = .ok key →
      Shown budget seen (.field n v) last (key, s)
  | entry {k v text seen' last s t} : h.repr k = .ok text →
      h.buildWithin budget seen (.text "key") k = (seen', .ok s) →
      h.buildWithin budget seen' (.text "value") v = (last, .ok t) →
      Shown budget seen (.entry k v) last (.plain (entryLabel text), entryNode text s t)

variable (h) in
/-- Members have been walked through one after the other. -/
inductive Walked (budget : Nat) (last : List Address) :
    List Address → List Part → List (Key × Snapshot) → Prop where
  | nil : Walked budget last last [] []
  | cons {seen seen' p child ps children} : h.Shown budget seen p seen' child →
      Walked budget last seen' ps children → Walked budget last seen (p :: ps) (child :: children)

variable (h) in
/-- What a snapshot shows of a value where some composites had been entered before, and what has
    been entered then. -/
inductive Drawing : Nat → List Address → Value → Value → List Address → Snapshot → Prop where
  | leaf {budget seen label x} : (h.shape x).address? = none →
      Drawing (budget + 1) seen label x seen
        (.node { label, type := h.typeOf x, isLeaf := true, content := h.freeze x } [])
  | again {budget seen label x a} : (h.shape x).address? = some a → a ∈ seen →
      Drawing (budget + 1) seen label x seen
        (.node { label, type := h.typeOf x, isLeaf := false, identity := some a,
                 alreadyReferenced := true } [])
  | whole {budget seen label x a ps built last children} : (h.shape x).address? = some a →
      a ∉ seen → h.HasParts x ps → h.Walked budget last (seen ++ [a]) ps built →
      h.labelled built = .ok children → Drawing (budget + 1) seen label x last
        (.node { label, type := h.typeOf x, isLeaf := false, identity := some a } children)

theorem buildPart_shown {budget : Nat} {seen last : List Address} {p : Part}
    {child : Key × Snapshot}
    (built : h.buildPart (h.buildWithin budget) seen p = (last, .ok child)) :
    h.Shown budget seen p last child := by
  cases p with
  | item i v =>
      simp only [buildPart] at built
      rcases inner : h.buildWithin budget seen (itemLabel i) v with ⟨seen₁, f | s⟩
      · simp [inner, Except.map] at built
      · simp only [inner, Except.map, Prod.mk.injEq, Except.ok.injEq] at built
        obtain ⟨rfl, rfl⟩ := built
        exact .item inner
  | field n v =>
      simp only [buildPart] at built
      rcases inner : h.buildWithin budget seen n v with ⟨seen₁, f | s⟩
      · simp [inner] at built
      · simp only [inner] at built
        cases named : h.key n with
        | error f => simp [named, Except.map] at built
        | ok key =>
            simp only [named, Except.map, Prod.mk.injEq, Except.ok.injEq] at built
            obtain ⟨rfl, rfl⟩ := built
            exact .field inner named
  | entry k v =>
      simp only [buildPart] at built
      cases told : h.repr k with
      | error f => simp [told] at built
      | ok text =>
          simp only [told] at built
          rcases inner : h.buildWithin budget seen (.text "key") k with ⟨seen₁, f | s⟩
          · simp [inner] at built
          · simp only [inner] at built
            rcases inner' : h.buildWithin budget seen₁ (.text "value") v with ⟨seen₂, f | t⟩
            · simp [inner', Except.map] at built
            · simp only [inner', Except.map, Prod.mk.injEq, Except.ok.injEq] at built
              obtain ⟨rfl, rfl⟩ := built
              exact .entry told inner inner'

theorem walked_of_walkEach {budget : Nat} {seen seen' : List Address} {walk : Walk Part}
    {children : List (Key × Snapshot)}
    (ok : walkEach (h.buildPart (h.buildWithin budget)) seen walk = (seen', .ok children)) :
    ∃ ps, walk = ps.map .ok ∧ h.Walked budget seen' seen ps children := by
  induction walk generalizing seen seen' children with
  | nil =>
      cases ok
      exact ⟨[], rfl, .nil⟩
  | cons p rest ih =>
      cases p with
      | error f => cases ok
      | ok p =>
          simp only [walkEach] at ok
          rcases built : h.buildPart (h.buildWithin budget) seen p with ⟨seen₁, f | child⟩
          · simp [built] at ok
          · simp only [built] at ok
            rcases later : walkEach (h.buildPart (h.buildWithin budget)) seen₁ rest with
              ⟨seen₂, f | others⟩
            · simp [later, Except.map] at ok
            · simp only [later, Except.map, Prod.mk.injEq, Except.ok.injEq] at ok
              obtain ⟨ps, rfl, walked⟩ := ih later
              obtain ⟨rfl, rfl⟩ := ok
              exact ⟨p :: ps, rfl, .cons (buildPart_shown built) walked⟩

/-- A snapshot that has been taken shows what its value is. -/
theorem buildWithin_drawing {budget : Nat} {seen seen' : List Address} {label v : Value}
    {s : Snapshot} (built : h.buildWithin budget seen label v = (seen', .ok s)) :
    h.Drawing budget seen label v seen' s := by
  cases budget with
  | zero => cases built
  | succ budget =>
      simp only [buildWithin] at built
      cases address : (h.shape v).address? with
      | none =>
          simp only [address, Prod.mk.injEq, Except.ok.injEq] at built
          exact built.1 ▸ built.2 ▸ .leaf address
      | some a =>
          by_cases met : a ∈ seen
          · simp only [address, List.contains_eq_mem, met, decide_true, if_true, Prod.mk.injEq,
              Except.ok.injEq] at built
            exact built.1 ▸ built.2 ▸ .again address met
          · simp only [address, List.contains_eq_mem, met, decide_false, Bool.false_eq_true,
              if_false] at built
            cases told : h.parts (h.shape v) with
            | error f => simp [told] at built
            | ok walk =>
                simp only [told] at built
                rcases each : walkEach (h.buildPart (h.buildWithin budget)) (seen ++ [a]) walk
                  with ⟨seen₁, f | members⟩
                · simp [each, Except.bind, Except.map] at built
                · simp only [each, Except.bind] at built
                  cases labelled : h.labelled members with
                  | error f => simp [labelled, Except.map] at built
                  | ok children =>
                      simp only [labelled, Except.map, Prod.mk.injEq, Except.ok.injEq] at built
                      obtain ⟨ps, rfl, walked⟩ := walked_of_walkEach each
                      exact built.1 ▸ built.2 ▸ .whole address met told walked labelled

/-! ## Reading a snapshot -/

namespace Drawing

variable {budget : Nat} {seen last : List Address} {label : Value} {s : Snapshot}

theorem identity (drawing : h.Drawing budget seen label x last s) :
    s.head.identity = (h.shape x).address? := by
  cases drawing with
  | leaf address | again address | whole address => rw [address, Snapshot.head]

theorem type (drawing : h.Drawing budget seen label x last s) : s.head.type = h.typeOf x := by
  cases drawing <;> rfl

theorem isLeaf (drawing : h.Drawing budget seen label x last s) : s.head.isLeaf ↔ h.isLeaf x := by
  rw [isLeaf_iff]
  cases drawing with
  | leaf address | again address | whole address => simp [address, Snapshot.head]

theorem content (drawing : h.Drawing budget seen label x last s) (leaf : s.head.isLeaf) :
    s.head.content = h.freeze x := by
  cases drawing with
  | leaf => rfl
  | again | whole => cases leaf

theorem members (drawing : h.Drawing budget seen label x last s) (leaf : s.head.isLeaf = false)
    (met : s.head.alreadyReferenced = false) : ∃ a budget' ps built, budget = budget' + 1 ∧
      (h.shape x).address? = some a ∧ a ∉ seen ∧ h.HasParts x ps ∧
      h.Walked budget' last (seen ++ [a]) ps built ∧ h.labelled built = .ok s.children := by
  cases drawing with
  | leaf => cases leaf
  | again => cases met
  | whole address fresh told walked labelled =>
      exact ⟨_, _, _, _, rfl, address, fresh, told, walked, labelled⟩

end Drawing

theorem PicturesWithin.pictures {budget : Nat} {v : Value} {s : Snapshot}
    (pictures : h.PicturesWithin budget v s) : h.Pictures v s :=
  ⟨budget, pictures⟩

theorem Depicts.mono {P Q : Value → Snapshot → Prop} {p : Part} {child : Key × Snapshot}
    (depicts : h.Depicts P p child) (more : ∀ v s, P v s → Q v s) : h.Depicts Q p child := by
  cases depicts with
  | item shown => exact .item (more _ _ shown)
  | field named shown => exact .field named (more _ _ shown)
  | entry told key value => exact .entry told (more _ _ key) (more _ _ value)

theorem Walked.picturesWithin {budget : Nat} {seen last : List Address} {ps : List Part}
    {children : List (Key × Snapshot)} (walked : h.Walked budget last seen ps children) :
    List.Forall₂ (h.Depicts (h.PicturesWithin budget)) ps children := by
  induction walked with
  | nil => exact .nil
  | cons shown _ ih =>
      refine .cons ?_ ih
      cases shown with
      | item built => exact .item ⟨_, _, _, built⟩
      | field built named => exact .field named ⟨_, _, _, built⟩
      | entry told built built' => exact .entry told ⟨_, _, _, built⟩ ⟨_, _, _, built'⟩

theorem Walked.pictures {budget : Nat} {seen last : List Address} {ps : List Part}
    {children : List (Key × Snapshot)} (walked : h.Walked budget last seen ps children) :
    List.Forall₂ (h.Depicts h.Pictures) ps children :=
  walked.picturesWithin.imp fun _ _ depicts => depicts.mono fun _ _ shown => shown.pictures

/-! ## What the walk has entered -/

variable (h) in
/-- A walk through a value comes by a composite. -/
def Meets (v : Value) (c : Address) : Prop := ∃ u, h.PassesBy v u ∧ (h.shape u).address? = some c

theorem Meets.member {v : Value} {c : Address} {ps : List Part} {p : Part} (meets : h.Meets v c)
    (members : h.HasParts x ps) (present : p ∈ ps) (inside : v ∈ p.values) : h.Meets x c := by
  obtain ⟨u, passes, address⟩ := meets
  exact ⟨u, (PassesBy.self.member members present inside).trans passes, address⟩

variable (h) in
/-- A walk within a budget enters only what it comes by. -/
def EntersMet (budget : Nat) : Prop := ∀ {seen label v last s},
  h.buildWithin budget seen label v = (last, .ok s) → ∀ c ∈ last, c ∈ seen ∨ h.Meets v c

theorem Shown.entered {budget : Nat} (enters : h.EntersMet budget) {seen last : List Address}
    {p : Part} {child : Key × Snapshot} (shown : h.Shown budget seen p last child) :
    ∀ c ∈ last, c ∈ seen ∨ ∃ v ∈ p.values, h.Meets v c := by
  intro c present
  cases shown with
  | item built | field built =>
      exact (enters built c present).imp_right fun met => ⟨_, by simp [Part.values], met⟩
  | entry _ built built' =>
      rcases enters built' c present with old | met
      · exact (enters built c old).imp_right fun met => ⟨_, by simp [Part.values], met⟩
      · exact .inr ⟨_, by simp [Part.values], met⟩

theorem Walked.entered {budget : Nat} (enters : h.EntersMet budget) {seen last : List Address}
    {ps : List Part} {children : List (Key × Snapshot)}
    (walked : h.Walked budget last seen ps children) :
    ∀ c ∈ last, c ∈ seen ∨ ∃ p ∈ ps, ∃ v ∈ p.values, h.Meets v c := by
  induction walked with
  | nil => exact fun c present => .inl present
  | cons shown _ ih =>
      intro c present
      rcases ih c present with old | ⟨p, later, met⟩
      · exact (shown.entered enters c old).imp_right fun met => ⟨_, List.mem_cons_self, met⟩
      · exact .inr ⟨p, List.mem_cons_of_mem _ later, met⟩

theorem entersMet (budget : Nat) : h.EntersMet budget := by
  induction budget with
  | zero =>
      intro _ _ _ _ _ built
      cases built
  | succ budget ih =>
      intro seen label v last s built c present
      cases buildWithin_drawing built with
      | leaf | again => exact .inl present
      | whole address _ members walked _ =>
          rcases walked.entered ih c present with old | ⟨p, member, u, inside, met⟩
          · rcases List.mem_append.mp old with before | here
            · exact .inl before
            · cases List.mem_singleton.mp here
              exact .inr ⟨v, .self, address⟩
          · exact .inr (met.member members member inside)

theorem Depicts.labels {P : Value → Snapshot → Prop} {p : Part} {child : Key × Snapshot}
    (depicts : h.Depicts P p child) : h.Labels child.1 p := by
  cases depicts with
  | item => rfl
  | field named => exact named
  | entry told => exact ⟨_, told, rfl⟩

/-! ## Labels that stay apart -/

/-- What is entered under a label takes the place of what was there, or comes last. -/
theorem enter_cases {κ ν ε : Type} {isKey : κ → Except ε Bool} {key : κ} {x : ν}
    {es es' : List (κ × ν)} (entered : Entries.enter isKey key x es = .ok es') :
    (∃ before k y after, es = before ++ (k, y) :: after ∧ isKey k = .ok true ∧
      es' = before ++ (k, x) :: after) ∨
    (∀ e ∈ es, isKey e.1 = .ok false) ∧ es' = es ++ [(key, x)] := by
  induction es generalizing es' with
  | nil =>
      cases entered
      exact .inr ⟨by simp, rfl⟩
  | cons e rest ih =>
      simp only [Entries.enter] at entered
      split at entered
      · cases entered
      · cases entered
        exact .inl ⟨[], e.1, e.2, rest, rfl, ‹_›, rfl⟩
      · cases later : Entries.enter isKey key x rest with
        | error f => simp [later, Except.map] at entered
        | ok rest' =>
            simp only [later, Except.map, Except.ok.injEq] at entered
            subst entered
            rcases ih later with ⟨before, k, y, after, rfl, same, rfl⟩ | ⟨apart, rfl⟩
            · exact .inl ⟨e :: before, k, y, after, rfl, same, rfl⟩
            · exact .inr ⟨List.forall_mem_cons.mpr ⟨‹_›, apart⟩, rfl⟩

theorem enter_append {κ ν ε : Type} {isKey : κ → Except ε Bool} {key : κ} {x : ν}
    {es es' : List (κ × ν)} (entered : Entries.enter isKey key x es = .ok es')
    (apart : ∀ e ∈ es, isKey e.1 ≠ .ok true) : es' = es ++ [(key, x)] := by
  rcases enter_cases entered with ⟨before, k, y, after, rfl, same, _⟩ | ⟨_, last⟩
  · exact absurd same (apart (k, y) (by simp))
  · exact last

/-- What holds before children are kept, and still after each of them, holds in the end. -/
theorem labelled_invariant {P : List (Key × Snapshot) → List (Key × Snapshot) → Prop}
    {built children : List (Key × Snapshot)} (labelled : h.labelled built = .ok children)
    (start : P [] built) (step : ∀ kept kept' e rest, P kept (e :: rest) →
      Entries.enter (e.1.isFor h.equal) e.1 e.2 kept = .ok kept' → P kept' rest) :
    P children [] := by
  have filed (later kept : List (Key × Snapshot)) (now : P kept later)
      (ok : later.foldlM (fun children e =>
        Entries.enter (e.1.isFor h.equal) e.1 e.2 children) kept = .ok children) :
      P children [] := by
    induction later generalizing kept with
    | nil =>
        cases ok
        exact now
    | cons e rest ih =>
        rw [List.foldlM_cons] at ok
        cases entered : Entries.enter (e.1.isFor h.equal) e.1 e.2 kept with
        | error f => simp [entered, bind, Except.bind] at ok
        | ok kept' =>
            simp only [entered, bind, Except.bind] at ok
            exact ih kept' (step kept kept' e rest now entered) ok
  exact filed built [] start labelled

/-- Children whose labels are told apart are all kept. -/
theorem labelled_eq {built children : List (Key × Snapshot)}
    (labelled : h.labelled built = .ok children)
    (apart : built.Pairwise fun e e' => e'.1.isFor h.equal e.1 ≠ .ok true) :
    children = built := by
  have grown := labelled_invariant (P := fun kept later => kept ++ later = built) labelled rfl
    fun kept kept' e rest whole entered => by
      subst whole
      -- No child that is kept so far has the label of a later one, which is added at the end.
      have last := enter_append entered fun e' inside =>
        (List.pairwise_append.mp apart).2.2 e' inside e List.mem_cons_self
      simp [last]
  simpa using grown

/-! ## Members of one kind -/

theorem itemLabel_inj {i j : Nat} (same : itemLabel i = itemLabel j) : i = j := by
  unfold itemLabel at same
  have texts := congrArg String.toList (Value.text.inj same)
  simp only [String.toList_append, List.append_cancel_left_eq,
    List.append_cancel_right_eq] at texts
  have digits : Nat.toDigits 10 i = Nat.toDigits 10 j := by
    simpa [toString, Nat.repr_eq_ofList_toDigits] using texts
  rw [← Nat.ofDigitChars_ten_toDigits (n := i), digits, Nat.ofDigitChars_ten_toDigits]

theorem entryLabel_inj {s t : String} (same : entryLabel s = entryLabel t) : s = t := by
  unfold entryLabel at same
  simpa [toString] using Value.text.inj same

theorem item_eq_of_isFor {i j : Nat}
    (found : (Key.plain (itemLabel i)).isFor h.equal (.plain (itemLabel j)) = .ok true) : i = j := by
  simp only [itemLabel, isFor_texts, Except.ok.injEq, beq_iff_eq] at found
  exact itemLabel_inj (congrArg Value.text found)

theorem entry_eq_of_isFor {s t : String}
    (found : (Key.plain (entryLabel s)).isFor h.equal (.plain (entryLabel t)) = .ok true) :
    s = t := by
  simp only [entryLabel, isFor_texts, Except.ok.injEq, beq_iff_eq] at found
  exact entryLabel_inj (congrArg Value.text found)

theorem map_ok_inj {α : Type} {xs ys : List α} :
    xs.map (Except.ok (ε := Fault)) = ys.map .ok ↔ xs = ys :=
  List.map_inj_right fun _ _ => Except.ok.inj

section Kinds

variable {a : Address} {ps : List Part}

theorem hasParts_sequence {items : List Value} (shape : h.shape x = .sequence a items) :
    h.HasParts x ps ↔ ps = itemsFrom 0 items := by
  unfold HasParts parts
  simp only [shape, Except.ok.injEq, map_ok_inj]
  exact eq_comm

theorem hasParts_mapping {kind : MappingKind} {es : List (Key × Value)}
    (shape : h.shape x = .mapping a kind es) : h.HasParts x ps ↔
      (h.walkEntries kind es).map (·.map fun (k, v) => .entry k v) = ps.map .ok := by
  unfold HasParts parts
  simp only [shape, Except.ok.injEq]

/-- Shared fields come first. -/
theorem hasParts_structured (shape : h.shape x = .structured a) : h.HasParts x ps ↔
    ∃ shared own, h.sharedFields a = .ok shared ∧ h.fields a = .ok own ∧
      ps = (shared ++ own).map fun (name, v) => .field name.value v := by
  unfold HasParts parts
  simp only [shape]
  cases h.sharedFields a with
  | error f => simp
  | ok shared =>
      cases h.fields a with
      | error f => simp [Except.map]
      | ok own =>
          have mapped : ((shared ++ own).map fun (name, v) =>
              Except.ok (ε := Fault) (Part.field name.value v)) =
              ((shared ++ own).map fun (name, v) => Part.field name.value v).map .ok := by
            rw [List.map_map]
            rfl
          simp only [Except.map, Except.ok.injEq, mapped, map_ok_inj]
          constructor
          · exact fun same => ⟨shared, own, rfl, rfl, same.symm⟩
          · rintro ⟨_, _, rfl, rfl, same⟩
            exact same.symm

theorem getElem?_itemsFrom (start i : Nat) (items : List Value) :
    (itemsFrom start items)[i]? = items[i]?.map (.item (start + i)) := by
  induction items generalizing start i with
  | nil => simp [itemsFrom]
  | cons x rest ih =>
      cases i with
      | zero => simp [itemsFrom]
      | succ i => simp [itemsFrom, ih, Nat.add_assoc, Nat.add_comm 1]

theorem HasParts.kind_eq (members : h.HasParts x ps) : ∀ p ∈ ps, p.kind = h.kind x := by
  intro p inside
  cases shape : h.shape x with
  | leaf =>
      unfold HasParts parts at members
      simp only [shape, Except.ok.injEq] at members
      rw [List.map_eq_nil_iff.mp members.symm] at inside
      cases inside
  | sequence a items =>
      rw [(hasParts_sequence shape).mp members] at inside
      obtain ⟨i, v, rfl⟩ := mem_itemsFrom inside
      simp [Part.kind, Heap.kind, shape, Shape.kind]
  | mapping a kind es =>
      have listed := (hasParts_mapping shape).mp members ▸ List.mem_map_of_mem inside
      obtain ⟨entry, _, same⟩ := List.mem_map.mp listed
      cases entry with
      | error f => cases same
      | ok entry =>
          cases same
          simp [Part.kind, Heap.kind, shape, Shape.kind]
  | structured a =>
      obtain ⟨shared, own, _, _, rfl⟩ := (hasParts_structured shape).mp members
      obtain ⟨_, _, rfl⟩ := List.mem_map.mp inside
      simp [Part.kind, Heap.kind, shape, Shape.kind]

end Kinds

end Heap

end Assay
