import Assay.Proofs.Snapshot.Members

/-! # Where two trees differ

Two trees are walked side by side along the labels that both have, as long as both nodes are
composites of one class, neither of them met before, and not the same object.  They differ where
such a walk ends with nodes that clash, and at every member that one side lacks on the way.
-/

namespace Assay

/-- A result is good, or what is raised is known. -/
inductive Delivers {α : Type} (raises : Fault → Prop) (good : α → Prop) :
    Except Fault α → Prop where
  | error {f} : raises f → Delivers raises good (.error f)
  | ok {x} : good x → Delivers raises good (.ok x)

namespace Delivers

variable {α β : Type} {raises raises' : Fault → Prop} {good : α → Prop} {good' : β → Prop}
  {result : Except Fault α}

theorem of_error {f : Fault} (delivers : Delivers raises good (.error f)) : raises f := by
  cases delivers
  assumption

theorem of_ok {x : α} (delivers : Delivers raises good (.ok x)) : good x := by
  cases delivers
  assumption

theorem total (delivers : Delivers raises good result) (never : ∀ f, ¬ raises f) :
    ∃ x, result = .ok x ∧ good x := by
  cases delivers with
  | error raised => exact absurd raised (never _)
  | ok holds => exact ⟨_, rfl, holds⟩

theorem map {f : α → β} (delivers : Delivers raises good result)
    (more : ∀ e, raises e → raises' e) (step : ∀ x, result = .ok x → good x → good' (f x)) :
    Delivers raises' good' (result.map f) := by
  cases delivers with
  | error raised => exact .error (more _ raised)
  | ok holds => exact .ok (step _ rfl holds)

theorem imp {good' : α → Prop} (delivers : Delivers raises good result)
    (more : ∀ e, raises e → raises' e) (step : ∀ x, result = .ok x → good x → good' x) :
    Delivers raises' good' result := by
  cases delivers with
  | error raised => exact .error (more _ raised)
  | ok holds => exact .ok (step _ rfl holds)

end Delivers

namespace Snapshot

/-! ## Nodes and leaves of a tree -/

/-- A node of a tree. -/
def NodeOf (n s : Snapshot) : Prop := ∃ path, (path, n) ∈ s.walk []

/-- Differences, seen from one label further up. -/
def placedUnder (label : Value) (ls : List (List Value × String × String)) :
    List (List Value × String × String) :=
  ls.map fun l => (label :: l.1, l.2)

/-- The difference leaves of a result. -/
def leaves (r : Option Snapshot) : List (List Value × String × String) :=
  (r.map leafDifferences).getD []

/-- Every inner node has a difference leaf below it, apart from what is shown as the key of an
    entry. -/
inductive Telling : Snapshot → Prop where
  | leaf {head children x y} : head.isLeaf → head.content = .difference x y →
      Telling (.node head children)
  | inner {head children} : head.isLeaf = false → children ≠ [] →
      (∀ e ∈ children, Telling e.2) → Telling (.node head children)
  | entry {head key value} : head.isLeaf = false → head.type = entryClass → Telling value →
      Telling (.node head [(.text "key", key), (.text "value", value)])

variable {s t n m : Snapshot}

mutual
theorem walk_path (path : List Value) : (s : Snapshot) →
    s.walk path = (s.walk []).map fun n => (path ++ n.1, n.2)
  | .node head children => by
      simp only [walk, List.map_cons, List.append_nil]
      rw [walkAll_path path children]
theorem walkAll_path (path : List Value) : (es : List (Key × Snapshot)) →
    walkAll path es = (walkAll [] es).map fun n => (path ++ n.1, n.2)
  | [] => by simp only [walkAll, List.map_nil]
  | (label, s) :: rest => by
      simp only [walkAll, List.map_append]
      rw [walk_path (path ++ [label.value]) s, walk_path ([] ++ [label.value]) s,
        walkAll_path path rest, List.map_map]
      simp only [Function.comp_def, List.append_assoc, List.nil_append]
end

theorem nodeOf_iff : NodeOf n s ↔ n = s ∨ ∃ e ∈ s.children, NodeOf n e.2 := by
  have shifted (path : List Value) (s : Snapshot) :
      (∃ p, (p, n) ∈ s.walk path) ↔ NodeOf n s := by
    rw [walk_path]
    simp [NodeOf]
  constructor
  · rintro ⟨p, there⟩
    rcases mem_walk.mp there with same | ⟨e, inside, further⟩
    · exact .inl (congrArg Prod.snd same)
    · exact .inr ⟨e, inside, (shifted _ _).mp ⟨p, further⟩⟩
  · rintro (rfl | ⟨e, inside, node⟩)
    · exact ⟨[], mem_walk.mpr (.inl rfl)⟩
    · obtain ⟨p, there⟩ := (shifted ([] ++ [e.1.value]) e.2).mpr node
      exact ⟨p, mem_walk.mpr (.inr ⟨e, inside, there⟩)⟩

theorem NodeOf.self : NodeOf s s := nodeOf_iff.mpr (.inl rfl)

theorem NodeOf.child {e : Key × Snapshot} (inside : e ∈ s.children) (node : NodeOf n e.2) :
    NodeOf n s :=
  nodeOf_iff.mpr (.inr ⟨e, inside, node⟩)

theorem leafDifferences_eq (s : Snapshot) : s.leafDifferences =
    (s.difference?.map fun pair => (([] : List Value), pair)).toList ++
      s.children.flatMap fun e => placedUnder e.1.value e.2.leafDifferences := by
  have shifted (e : Key × Snapshot) : (e.2.walk ([] ++ [e.1.value])).filterMap (fun n =>
      n.2.difference?.map fun pair => (n.1, pair)) = placedUnder e.1.value e.2.leafDifferences := by
    rw [walk_path]
    simp [placedUnder, leafDifferences, List.filterMap_map, List.map_filterMap, Function.comp_def]
  unfold leafDifferences
  rw [walk_eq, List.filterMap_cons, List.filterMap_flatMap]
  simp only [shifted]
  cases s.difference? <;> rfl

/-- A tree without difference leaves shows none. -/
theorem leafDifferences_nil (none : ∀ n, NodeOf n s → n.difference? = none) :
    s.leafDifferences = [] := by
  unfold leafDifferences
  refine List.filterMap_eq_nil_iff.mpr fun n inside => ?_
  dsimp only
  rw [none n.2 ⟨n.1, inside⟩, Option.map_none]

theorem leafDifferences_difference (x y : String) (label : Value) :
    (difference x y label).leafDifferences = [([], x, y)] := by
  rw [leafDifferences_eq]
  rfl

theorem Telling.leafDifferences (telling : Telling s) : s.leafDifferences ≠ [] := by
  induction telling with
  | leaf leaf content =>
      rw [leafDifferences_eq]
      simp [difference?, head, leaf, content]
  | @inner head children leaf some each ih =>
      obtain ⟨e, inside⟩ := List.exists_mem_of_ne_nil children some
      rw [leafDifferences_eq]
      simp only [ne_eq, List.append_eq_nil_iff, List.flatMap_eq_nil_iff, not_and]
      exact fun _ none => ih e inside (List.map_eq_nil_iff.mp (none e inside))
  | entry leaf type _ ih =>
      rw [leafDifferences_eq]
      simp only [ne_eq, List.append_eq_nil_iff, List.flatMap_eq_nil_iff, not_and]
      exact fun _ none => ih (List.map_eq_nil_iff.mp (none (.text "value", _) (by simp [children])))

/-! ## Positions -/

variable (h : Heap)

/-- Two nodes are looked into. -/
structure Opened (s t : Snapshot) : Prop where
  types : s.head.type = t.head.type
  composite : s.head.isLeaf = false ∧ t.head.isLeaf = false
  fresh : s.head.alreadyReferenced = false ∧ t.head.alreadyReferenced = false
  apart : s.head.identity.isSome → s.head.identity ≠ t.head.identity

/-- Two nodes that face each other differ, with what is told of them. -/
inductive Clash (s t : Snapshot) : String → String → Prop where
  | types {x y} : s.head.type ≠ t.head.type → s.summary h = .ok x → t.summary h = .ok y →
      Clash s t x y
  | leaves {x y} : s.head.type = t.head.type → s.head.isLeaf → t.head.isLeaf →
      h.contentEqual s.head.content t.head.content = .ok false → s.summary h = .ok x →
      t.summary h = .ok y → Clash s t x y
  | leaf {x y} : s.head.type = t.head.type → s.head.isLeaf ≠ t.head.isLeaf →
      s.summary h = .ok x → t.summary h = .ok y → Clash s t x y
  | met {x y} : s.head.type = t.head.type → s.head.isLeaf = false → t.head.isLeaf = false →
      s.head.alreadyReferenced ∨ t.head.alreadyReferenced → s.head.identity ≠ t.head.identity →
      s.taggedSummary h = .ok x → t.taggedSummary h = .ok y → Clash s t x y

/-- Where a member that one side lacks is told, and with which text: an entry by its value. -/
inductive Lack (s : Snapshot) : List Value → String → Prop where
  | member {x} : s.head.type ≠ entryClass → s.summary h = .ok x → Lack s [] x
  | entry {value x} : s.head.type = entryClass → (.text "value", value) ∈ s.children →
      value.summary h = .ok x → Lack s [.text "value"] x

/-- Two trees differ at a path, with the two texts that are told. -/
inductive Mismatch : Snapshot → Snapshot → List Value → String → String → Prop where
  | clash {s t x y} : Clash h s t x y → Mismatch s t [] x y
  | missing {s t k c p x} : Opened s t → (k, c) ∈ s.children →
      h.find? k.value t.children = .ok none → Lack h c p x →
      Mismatch s t (k.value :: p) x missingText
  | surplus {s t k c p y} : Opened s t → (k, c) ∈ t.children →
      h.find? k.value s.children = .ok none → Lack h c p y →
      Mismatch s t (k.value :: p) missingText y
  | under {s t k c d p x y} : Opened s t → (k, c) ∈ s.children →
      h.find? k.value t.children = .ok (some d) → Mismatch c d p x y →
      Mismatch s t (k.value :: p) x y

/-- There is nothing under a label. -/
def lacks (es : List (Key × Snapshot)) (k : Key) : Bool := h.find? k.value es matches .ok none

/-- The labels of the first node, and then those that only the other has. -/
def labelOrder (s t : Snapshot) : List Key :=
  s.children.map (·.1) ++ (t.children.map (·.1)).filter (lacks h s.children)

/-- One path comes before another, in the order of the labels. -/
inductive Before : Snapshot → Snapshot → List Value → List Value → Prop where
  | here {s t k k' p q} : [k, k'].Sublist (labelOrder h s t) →
      Before s t (k.value :: p) (k'.value :: q)
  | under {s t k c d p q} : (k, c) ∈ s.children → h.find? k.value t.children = .ok (some d) →
      Before c d p q → Before s t (k.value :: p) (k.value :: q)

/-! ## What is compared -/

/-- What holds of a node as it was made. -/
structure Made (s : Snapshot) : Prop where
  captured : s.difference? = none
  leaf : s.head.isLeaf → s.head.identity = none
  met : s.head.alreadyReferenced → s.head.identity.isSome
  entry : s.head.type = entryClass → s.head.alreadyReferenced = false →
    ∃ k v, s.children = [(.text "key", k), (.text "value", v)]

/-- Labels of a node are found again where they were entered: they are filed as they were, and none
    has become equal to an earlier one. -/
structure LabelsKept (s : Snapshot) : Prop where
  current : ∀ e ∈ s.children, h.Current e.1
  apart : s.children.Pairwise fun e e' => e'.1.isFor h.equal e.1 ≠ .ok true

/-- Two trees as they were made, with labels that have been kept.  What is one object is of one
    class, and entries that are met again are not among the nodes. -/
structure Comparable (s t : Snapshot) : Prop where
  made : ∀ n, NodeOf n s ∨ NodeOf n t → Made n
  kept : ∀ n, NodeOf n s ∨ NodeOf n t → LabelsKept h n
  bare : ∀ n, NodeOf n s ∨ NodeOf n t → ¬ Bare n
  oneClass : ∀ n m, NodeOf n s → NodeOf m t → n.head.identity.isSome →
    n.head.identity = m.head.identity → n.head.type = m.head.type

/-- Something that is asked about two trees raises. -/
inductive Unanswered (s t : Snapshot) (f : Fault) : Prop where
  | summary {n : Snapshot} : NodeOf n s ∨ NodeOf n t → n.summary h = .error f → Unanswered s t f
  | content {n m : Snapshot} : NodeOf n s → NodeOf m t →
      h.contentEqual n.head.content m.head.content = .error f → Unanswered s t f
  | label {n m : Snapshot} {e e'} : NodeOf n s ∨ NodeOf n t → NodeOf m s ∨ NodeOf m t →
      e ∈ n.children → e' ∈ m.children → e.1.isFor h.equal e'.1 = .error f → Unanswered s t f
  | name {n : Snapshot} : NodeOf n s → noteName h n.head = .error f → Unanswered s t f

/-- A result tells the given positions, in the given order. -/
structure Lists (differs : List Value → String → String → Prop)
    (before : List Value → List Value → Prop) (r : Option Snapshot) : Prop where
  exact : ∀ p x y, (p, x, y) ∈ leaves r ↔ differs p x y
  ordered : (leaves r).Pairwise fun l l' => before l.1 l'.1
  telling : ∀ d, r = some d → Telling d

/-- What a comparison comes to: positions at which two trees differ, or something unanswered. -/
abbrev Reported (s t : Snapshot) : Except Fault (Option Snapshot) → Prop :=
  Delivers (Unanswered h s t) (Lists (Mismatch h s t) (Before h s t))

variable {h} {e e' : Key × Snapshot} {f : Fault}

/-! ## Trees below -/

theorem Comparable.under (comparable : Comparable h s t) (inside : e ∈ s.children)
    (inside' : e' ∈ t.children) : Comparable h e.2 e'.2 := by
  have lift {n : Snapshot} (node : NodeOf n e.2 ∨ NodeOf n e'.2) : NodeOf n s ∨ NodeOf n t :=
    node.imp (.child inside) (.child inside')
  exact ⟨fun n node => comparable.made n (lift node), fun n node => comparable.kept n (lift node),
    fun n node => comparable.bare n (lift node), fun n m left right =>
      comparable.oneClass n m (left.child inside) (right.child inside')⟩

theorem Unanswered.under (asked : Unanswered h e.2 e'.2 f) (inside : e ∈ s.children)
    (inside' : e' ∈ t.children) : Unanswered h s t f := by
  have lift {n : Snapshot} (node : NodeOf n e.2 ∨ NodeOf n e'.2) : NodeOf n s ∨ NodeOf n t :=
    node.imp (.child inside) (.child inside')
  cases asked with
  | summary node raised => exact .summary (lift node) raised
  | content left right raised => exact .content (left.child inside) (right.child inside') raised
  | label node node' own other raised => exact .label (lift node) (lift node') own other raised
  | name node raised => exact .name (node.child inside) raised

/-! ## Heads -/

theorem opened_iff : compareHeads h s t = none ↔ Opened s t := by
  constructor
  · intro on
    have heads : Heads h s t _ := compareHeads_cases s t
    rw [on] at heads
    cases heads with
    | opened apart types leaf leaf' met met' => exact ⟨types, ⟨leaf, leaf'⟩, ⟨met, met'⟩, apart⟩
  · rintro ⟨types, ⟨leaf, leaf'⟩, ⟨met, met'⟩, apart⟩
    exact (Heads.opened apart types leaf leaf' met met').eq

theorem Clash.unique {x y x' y' : String} (clash : Clash h s t x y) (clash' : Clash h s t x' y') :
    x' = x ∧ y' = y := by
  cases clash <;> cases clash' <;> simp_all

/-- Of nodes that are not looked into only the two themselves are told. -/
theorem mismatch_closed (closed : ¬ Opened s t) {p : List Value} {x y : String} :
    Mismatch h s t p x y ↔ p = [] ∧ Clash h s t x y := by
  constructor
  · intro mismatch
    cases mismatch with
    | clash clash => exact ⟨rfl, clash⟩
    | missing on | surplus on | under on => exact absurd on closed
  · rintro ⟨rfl, clash⟩
    exact .clash clash

section Lists

variable {differs : List Value → String → String → Prop} {before : List Value → List Value → Prop}

theorem lists_none (nowhere : ∀ p x y, ¬ differs p x y) : Lists differs before none where
  exact p x y := by simpa [leaves] using nowhere p x y
  ordered := .nil
  telling _ some := nomatch some

theorem lists_one {d : Snapshot} {p : List Value} {x y : String} (telling : Telling d)
    (one : d.leafDifferences = [(p, x, y)])
    (only : ∀ p' x' y', differs p' x' y' ↔ p' = p ∧ x' = x ∧ y' = y) :
    Lists differs before (some d) where
  exact p' x' y' := by simp [leaves, one, only]
  ordered := by simp [leaves, one]
  telling _ same := Option.some.inj same ▸ telling

end Lists

theorem telling_difference (x y : String) (label : Value) : Telling (.difference x y label) :=
  .leaf rfl rfl

theorem lists_clash {x y : String} (closed : ¬ Opened s t) (clash : Clash h s t x y) :
    Lists (Mismatch h s t) (Before h s t) (some (.difference x y s.head.label)) := by
  refine lists_one (telling_difference x y _) (leafDifferences_difference x y _) fun p x' y' => ?_
  rw [mismatch_closed closed]
  refine and_congr_right fun _ => ⟨clash.unique, ?_⟩
  rintro ⟨rfl, rfl⟩
  exact clash

theorem leafDifference_delivers (closed : ¬ Opened s t)
    (clash : ∀ x y, s.summary h = .ok x → t.summary h = .ok y → Clash h s t x y) :
    Reported h s t ((s.leafDifference h t).map some) := by
  unfold leafDifference
  cases left : s.summary h with
  | error f => exact .error (.summary (.inl .self) left)
  | ok x =>
      cases right : t.summary h with
      | error f => exact .error (.summary (.inr .self) right)
      | ok y => exact .ok (lists_clash closed (clash x y left right))

theorem taggedSummary_error (raised : s.taggedSummary h = .error f) : s.summary h = .error f := by
  unfold taggedSummary at raised
  cases told : s.summary h with
  | error f' => simpa [told, Except.map] using raised
  | ok x => simp [told, Except.map] at raised

/-- One object does not differ from itself: it has one class, and it is no leaf. -/
theorem Comparable.same_object (comparable : Comparable h s t) (whole : s.head.identity.isSome)
    (one : s.head.identity = t.head.identity) (p : List Value) (x y : String) :
    ¬ Mismatch h s t p x y := by
  intro mismatch
  obtain ⟨_, clash⟩ := (mismatch_closed fun on => on.apart whole one).mp mismatch
  have types := comparable.oneClass s t .self .self whole one
  have composite {n : Snapshot} (made : Made n) (whole : n.head.identity.isSome) :
      n.head.isLeaf = false := by
    by_contra leaf
    simp [made.leaf (by simpa using leaf)] at whole
  have left := composite (comparable.made s (.inl .self)) whole
  have right := composite (comparable.made t (.inr .self)) (one ▸ whole)
  cases clash <;> simp_all

theorem met_delivers (types : s.head.type = t.head.type) (left : s.head.isLeaf = false)
    (right : t.head.isLeaf = false) (met : s.head.alreadyReferenced ∨ t.head.alreadyReferenced)
    (apart : s.head.identity ≠ t.head.identity) (closed : ¬ Opened s t) :
    Reported h s t (taggedDifference h s t) := by
  unfold taggedDifference
  cases told : s.taggedSummary h with
  | error f => exact .error (.summary (.inl .self) (taggedSummary_error told))
  | ok x =>
      cases told' : t.taggedSummary h with
      | error f => exact .error (.summary (.inr .self) (taggedSummary_error told'))
      | ok y => exact .ok (lists_clash closed (.met types left right met apart told told'))

/-- What two nodes give that are not looked into. -/
theorem Comparable.heads (comparable : Comparable h s t) {result : Except Fault (Option Snapshot)}
    (told : compareHeads h s t = some result) : Reported h s t result := by
  have closed : ¬ Opened s t := fun on => by cases told.symm.trans (opened_iff.mpr on)
  have heads : Heads h s t _ := compareHeads_cases s t
  rw [told] at heads
  cases heads with
  | same whole one => exact .ok (lists_none (comparable.same_object whole one))
  | types _ types => exact leafDifference_delivers closed fun x y => .types types
  | equal _ types leaf leaf' equal =>
      refine .ok (lists_none fun p x y mismatch => ?_)
      obtain ⟨_, clash⟩ := (mismatch_closed closed).mp mismatch
      cases clash <;> simp_all
  | unequal _ types leaf leaf' unequal =>
      exact leafDifference_delivers closed fun x y => .leaves types leaf leaf' unequal
  | raised _ _ _ _ raised => exact .error (.content .self .self raised)
  | leaf _ types differ => exact leafDifference_delivers closed fun x y => .leaf types differ
  | met distinct types leaf leaf' met =>
      -- What was met before is an object.
      have apart : s.head.identity ≠ t.head.identity := by
        intro same
        rcases met with met | met
        · exact distinct ((comparable.made s (.inl .self)).met met) same
        · exact distinct (same ▸ (comparable.made t (.inr .self)).met met) same
      exact met_delivers types leaf leaf' met apart closed

/-! ## Members that one side lacks -/

theorem lack_member (type : n.head.type ≠ entryClass) {x : String}
    (told : n.summary h = .ok x) (p' : List Value) (x' : String) :
    Lack h n p' x' ↔ p' = [] ∧ x' = x := by
  constructor
  · intro lack
    cases lack with
    | member _ told' => exact ⟨rfl, Except.ok.inj (told'.symm.trans told)⟩
    | entry entry => exact absurd entry type
  · rintro ⟨rfl, rfl⟩
    exact .member type told

theorem lack_entry (type : n.head.type = entryClass) {k v : Snapshot}
    (children : n.children = [(.text "key", k), (.text "value", v)]) {x : String}
    (told : v.summary h = .ok x) (p' : List Value) (x' : String) :
    Lack h n p' x' ↔ p' = [.text "value"] ∧ x' = x := by
  constructor
  · intro lack
    cases lack with
    | member other => exact absurd type other
    | @entry value _ _ inside told' =>
        have same : value = v := by simpa [children, Key.text, Key.plain] using inside
        subst same
        exact ⟨rfl, Except.ok.inj (told'.symm.trans told)⟩
  · rintro ⟨rfl, rfl⟩
    exact .entry type (by simp [children]) told

/-- The key of an entry adds no difference. -/
theorem leafDifferences_entry {head : Head} (composite : head.isLeaf = false) {k : Snapshot}
    (silent : k.leafDifferences = []) (d : Snapshot) :
    (Snapshot.node head [(.text "key", k), (.text "value", d)]).leafDifferences =
      placedUnder (.text "value") d.leafDifferences := by
  rw [leafDifferences_eq]
  simp [Snapshot.children, difference?, Snapshot.head, composite, silent, placedUnder, Key.text,
    Key.plain]

theorem requireChild_entry {k v : Snapshot}
    (children : n.children = [(.text "key", k), (.text "value", v)]) :
    n.requireChild h "key" = .ok k ∧ n.requireChild h "value" = .ok v := by
  rw [requireChild, requireChild, children]
  exact find_entry k v

theorem silent_child (made : ∀ m, NodeOf m n → Made m) (inside : e ∈ n.children) :
    e.2.leafDifferences = [] :=
  leafDifferences_nil fun m node => (made m (node.child inside)).captured

/-- What is told of a member that one side lacks. -/
theorem missingItem_delivers (made : ∀ m, NodeOf m n → Made m) (bare : ¬ Bare n) (side : Bool) :
    Delivers (fun f => ∃ m, NodeOf m n ∧ m.summary h = .error f)
      (fun d => Telling d ∧ ∃ p x, (∀ p' x', Lack h n p' x' ↔ p' = p ∧ x' = x) ∧
        d.leafDifferences = [(p, if side then (missingText, x) else (x, missingText))])
      (n.missingItem h side) := by
  unfold missingItem
  by_cases type : n.head.type = entryClass
  · have entry : (n.head.type == entryClass) = true := beq_iff_eq.mpr type
    obtain ⟨k, v, children⟩ := (made n .self).entry type (by simpa using mt (.intro type) bare)
    obtain ⟨key, value⟩ := requireChild_entry (h := h) children
    have inside : (.text "key", k) ∈ n.children ∧ (.text "value", v) ∈ n.children := by
      simp [children]
    simp only [entry, if_true, key, value, bind, Except.bind]
    cases told : v.summary h with
    | error f => exact .error ⟨v, .child inside.2 .self, told⟩
    | ok x =>
        have silent : k.leafDifferences = [] := silent_child made inside.1
        refine .ok ⟨.entry rfl rfl ?_, [.text "value"], x, lack_entry type children told, ?_⟩
        · cases side <;> exact telling_difference _ _ _
        · rw [leafDifferences_entry rfl silent]
          cases side <;> simp [placedUnder, leafDifferences_difference]
  · have plain : (n.head.type == entryClass) = false := by simpa using type
    simp only [plain, Bool.false_eq_true, if_false, bind, Except.bind]
    cases told : n.summary h with
    | error f => exact .error ⟨n, .self, told⟩
    | ok x =>
        refine .ok ⟨?_, [], x, lack_member type told, ?_⟩
        · cases side <;> exact telling_difference _ _ _
        · cases side <;> exact leafDifferences_difference _ _ _

theorem Comparable.missing (comparable : Comparable h s t)
    (among : ∀ m, NodeOf m n → NodeOf m s ∨ NodeOf m t) (side : Bool) :
    Delivers (Unanswered h s t)
      (fun d => Telling d ∧ ∃ p x, (∀ p' x', Lack h n p' x' ↔ p' = p ∧ x' = x) ∧
        d.leafDifferences = [(p, if side then (missingText, x) else (x, missingText))])
      (n.missingItem h side) := by
  have bare := comparable.bare n (among n .self)
  have made (m : Snapshot) (inner : NodeOf m n) : Made m := comparable.made m (among m inner)
  refine (missingItem_delivers made bare side).imp ?_ fun _ _ => id
  rintro f ⟨m, inner, told⟩
  exact .summary (among m inner) told

end Snapshot

end Assay
