import Assay.Proofs.Snapshot.Drawn
import Assay.Proofs.Snapshot.Difference

/-! # Differences that are told

A comparison of two snapshots looks children up by their labels, compares what leaves keep and
writes what differs.  Where all of this is answered, one thing is left that can go wrong: an entry
that is on one side only is told by its key and its value, and an object of the class of entries that
was met before shows neither.
-/

namespace Assay

namespace Entries

variable {κ ν ε : Type} {isKey : κ → Except ε Bool} {es : List (κ × ν)}

theorem search_none (absent : search isKey es = .ok none) : ∀ e ∈ es, isKey e.1 = .ok false := by
  induction es with
  | nil => simp
  | cons e rest ih =>
      simp only [search] at absent
      split at absent
      · cases absent
      · cases absent
      · exact List.forall_mem_cons.mpr ⟨‹_›, ih absent⟩

end Entries

namespace Snapshot

/-- What is raised where an entry without a value is asked for it. -/
def noValue : Fault := .keyError (.text "value")

/-- A result is there exactly if nothing is stuck, and else it is known what is raised. -/
def Comes {α : Type} (stuck : Prop) (result : Except Fault α) : Prop :=
  (¬ stuck → ∃ x, result = .ok x) ∧ (stuck → result = .error noValue)

/-- A node of the class of entries that was met before, so that it shows no value. -/
def Bare (s : Snapshot) : Prop := s.head.type = entryClass ∧ s.head.alreadyReferenced

variable (h : Heap)

/-- The labels under which two nodes are compared: those of the first, and those that only the other
    has. -/
def Asks (s t : Snapshot) (label : Value) : Prop :=
  (∃ e ∈ s.children, e.1.value = label) ∨
    (∃ e ∈ t.children, e.1.value = label) ∧ h.find? label s.children = .ok none

mutual
/-- A comparison comes to an entry that is on one side only and was met before. -/
inductive Stuck : Snapshot → Snapshot → Prop where
  | under {s t label} : compareHeads h s t = none → Asks h s t label → StuckUnder label s t →
      Stuck s t
/-- It does so among the children under a label. -/
inductive StuckUnder : Value → Snapshot → Snapshot → Prop where
  | missing {label s t u} : h.find? label s.children = .ok (some u) →
      h.find? label t.children = .ok none → Bare u → StuckUnder label s t
  | surplus {label s t u} : h.find? label s.children = .ok none →
      h.find? label t.children = .ok (some u) → Bare u → StuckUnder label s t
  | deeper {label s t u u'} : h.find? label s.children = .ok (some u) →
      h.find? label t.children = .ok (some u') → Stuck u u' → StuckUnder label s t
end

/-- A label is written where a note calls a node by it. -/
def Named (label : Value) : Prop := h.truth label → ∃ text, h.display label = .ok text

/-- A composite of the class of entries shows a key and a value, unless it is an object among some
    values that was met before. -/
structure Furnished (V : Value → Prop) (head : Head) (children : List (Key × Snapshot)) : Prop where
  fresh : ¬ head.alreadyReferenced → ∃ s t, children = [(.text "key", s), (.text "value", t)]
  met : head.alreadyReferenced → children = [] ∧ ∃ v, V v ∧ h.typeOf v = entryClass

/-- A snapshot shows some values under some labels. -/
inductive Shows (L : Key → Prop) (V : Value → Prop) : Snapshot → Prop where
  | leaf {label v} : Named h label → V v → h.isLeaf v → h.typeOf v ≠ entryClass → Shows L V
      (.node { label, type := h.typeOf v, isLeaf := true, content := h.freeze v } [])
  | composite {head children} : Named h head.label → head.isLeaf = false →
      (head.type = entryClass → Furnished h V head children) → (∀ e ∈ children, L e.1) →
      (∀ e ∈ children, Shows L V e.2) → Shows L V (.node head children)

/-- Labels can be told apart, and what leaves keep can be written and compared. -/
structure Answers (L : Key → Prop) (V W : Value → Prop) : Prop where
  current : ∀ k, L k → h.Current k
  apart : ∀ k k', L k → L k' → ∃ r, k.isFor h.equal k' = .ok r
  written : ∀ v, V v ∨ W v → h.isLeaf v → ∃ text, h.summarize (h.freeze v) = .ok text
  compared : ∀ v w, V v → W w → h.isLeaf v → h.isLeaf w → h.typeOf v = h.typeOf w →
    ∃ r, h.contentEqual (h.freeze v) (h.freeze w) = .ok r

variable {h} {L : Key → Prop} {V W : Value → Prop} {s t : Snapshot}

section Comes

variable {α β : Type} {stuck stuck' : Prop} {result : Except Fault α}

theorem comes_of_ok (free : ¬ stuck) (ok : ∃ x, result = .ok x) : Comes stuck result :=
  ⟨fun _ => ok, fun bad => absurd bad free⟩

theorem comes_of_error (bad : stuck) (raised : result = .error noValue) : Comes stuck result :=
  ⟨fun free => absurd bad free, fun _ => raised⟩

theorem Comes.congr (comes : Comes stuck result) (same : stuck' ↔ stuck) : Comes stuck' result :=
  ⟨fun free => comes.1 (same.not.mp free), fun bad => comes.2 (same.mp bad)⟩

theorem Comes.map (comes : Comes stuck result) (f : α → β) : Comes stuck (result.map f) := by
  refine ⟨fun free => ?_, fun bad => by rw [comes.2 bad, Except.map]⟩
  obtain ⟨x, ok⟩ := comes.1 free
  exact ⟨f x, by rw [ok, Except.map]⟩

end Comes

/-! ## What is written -/

theorem named_text (s : String) : Named h (.text s) := fun _ => ⟨s, rfl⟩

theorem Shows.named (shows : Shows h L V s) : Named h s.head.label := by
  cases shows with
  | leaf named | composite named => exact named

theorem Shows.summary (shows : Shows h L V s)
    (written : ∀ v, V v → h.isLeaf v → ∃ text, h.summarize (h.freeze v) = .ok text) :
    ∃ text, s.summary h = .ok text := by
  cases shows with
  | leaf _ inside leaf => exact written _ inside leaf
  | composite _ leaf =>
      unfold Snapshot.summary
      simp only [head, leaf, Bool.false_eq_true, if_false]
      split <;> exact ⟨_, rfl⟩

theorem find_entry (s t : Snapshot) :
    h.find (.text "key") [(.text "key", s), (.text "value", t)] = .ok s ∧
      h.find (.text "value") [(.text "key", s), (.text "value", t)] = .ok t := by
  have key : h.key (.text "key") = .ok (.text "key") := rfl
  have value : h.key (.text "value") = .ok (.text "value") := rfl
  constructor
  · simp [Heap.find, Heap.under, Heap.under?, key, Entries.search, Key.text, Heap.isFor_texts]
  · simp [Heap.find, Heap.under, Heap.under?, value, Entries.search, Key.text, Heap.isFor_texts]

/-- A member that one side lacks is told, unless it is an entry that was met before. -/
theorem Shows.missingItem (shows : Shows h L V s)
    (written : ∀ v, V v → h.isLeaf v → ∃ text, h.summarize (h.freeze v) = .ok text)
    (side : Bool) : Comes (Bare s) (s.missingItem h side) := by
  obtain ⟨text, told⟩ := shows.summary written
  have other (type : s.head.type ≠ entryClass) : Comes (Bare s) (s.missingItem h side) := by
    refine comes_of_ok (fun bare => type bare.1) ?_
    unfold Snapshot.missingItem
    rw [if_neg (by simpa using type), told]
    exact ⟨_, rfl⟩
  cases shows with
  | leaf _ _ _ type => exact other type
  | @composite head children _ leaf furnished labels inner =>
      by_cases type : head.type = entryClass
      · have entry : ((Snapshot.node head children).head.type == entryClass) = true :=
          beq_iff_eq.mpr type
        unfold Snapshot.missingItem requireChild
        simp only [entry, if_true]
        by_cases met : head.alreadyReferenced
        · obtain ⟨rfl, _⟩ := (furnished type).met met
          exact comes_of_error ⟨type, met⟩ rfl
        · obtain ⟨key, value, rfl⟩ := (furnished type).fresh met
          obtain ⟨text', told'⟩ := Shows.summary (inner (.text "value", value) (by simp)) written
          refine comes_of_ok (fun bare => met bare.2) ?_
          simp only [Snapshot.children, (find_entry key value).1, (find_entry key value).2, bind,
            Except.bind, told']
          exact ⟨_, rfl⟩
      · exact other type

/-! ## Heads -/

theorem Answers.leafDifference (answers : Answers h L V W) (left : Shows h L V s)
    (right : Shows h L W t) : ∃ d, s.leafDifference h t = .ok d := by
  obtain ⟨text, told⟩ := left.summary fun v inside => answers.written v (.inl inside)
  obtain ⟨text', told'⟩ := right.summary fun v inside => answers.written v (.inr inside)
  unfold Snapshot.leafDifference
  rw [told, told']
  exact ⟨_, rfl⟩

theorem Shows.leaf_inv (shows : Shows h L V s) (leaf : s.head.isLeaf) :
    ∃ v, V v ∧ h.isLeaf v ∧ s.head.type = h.typeOf v ∧ s.head.content = h.freeze v := by
  cases shows with
  | leaf _ inside own => exact ⟨_, inside, own, rfl, rfl⟩
  | composite _ composite => exact absurd leaf (by simp [head, composite])

theorem Answers.compareHeads (answers : Answers h L V W) (left : Shows h L V s)
    (right : Shows h L W t) {result : Except Fault (Option Snapshot)}
    (told : compareHeads h s t = some result) : ∃ r, result = .ok r := by
  obtain ⟨d, difference⟩ := answers.leafDifference left right
  obtain ⟨text, summary⟩ := left.summary fun v inside => answers.written v (.inl inside)
  obtain ⟨text', summary'⟩ := right.summary fun v inside => answers.written v (.inr inside)
  have differs : ∃ r, (s.leafDifference h t).map some = .ok r := by
    rw [difference]
    exact ⟨_, rfl⟩
  have heads : Snapshot.Heads h s t _ := Snapshot.compareHeads_cases s t
  rw [told] at heads
  cases heads with
  | same | equal => exact ⟨none, rfl⟩
  | types | unequal | leaf => exact differs
  | raised _ types leaf leaf' raised =>
      obtain ⟨v, inside, own, type, content⟩ := left.leaf_inv leaf
      obtain ⟨w, inside', own', type', content'⟩ := right.leaf_inv leaf'
      obtain ⟨r, compared⟩ := answers.compared v w inside inside' own own' (by rwa [type, type'] at types)
      rw [content, content', compared] at raised
      cases raised
  | met =>
      simp only [taggedDifference, taggedSummary, summary, summary']
      exact ⟨_, rfl⟩

/-- Only nodes that were not met before are looked into. -/
theorem fresh_of_compareHeads (on : Snapshot.compareHeads h s t = none) :
    ¬ s.head.alreadyReferenced := by
  have heads : Snapshot.Heads h s t _ := Snapshot.compareHeads_cases s t
  rw [on] at heads
  cases heads with
  | opened _ _ _ _ met _ => exact Bool.not_eq_true _ ▸ met

/-! ## Children -/

section Children

variable {ν : Type} {es es' : List (Key × ν)} {key : Key}

theorem Answers.find? (answers : Answers h L V W) (label : L key) (labels : ∀ e ∈ es, L e.1) :
    ∃ r, h.find? key.value es = .ok r ∧ (∀ x, r = some x → ∃ e ∈ es, e.2 = x) ∧
      (r = none → ∀ e ∈ es, e.1 ≠ key) := by
  have current : h.key key.value = .ok key := answers.current key label
  obtain ⟨r, found⟩ :=
    Entries.search_total fun e inside => answers.apart key e.1 label (labels e inside)
  refine ⟨r, by simp only [Heap.find?, Heap.under?, current, found], ?_, ?_⟩
  · rintro x rfl
    obtain ⟨k, member, _⟩ := Entries.search_ok found
    exact ⟨_, member, rfl⟩
  · rintro rfl e inside rfl
    cases (Heap.isFor_self e.1).symm.trans (Entries.search_none found e inside)

end Children

section Compared

theorem Answers.extraLabels (answers : Answers h L V W) {known : List (Key × Candidate)}
    {es : List (Key × Snapshot)} (labels : ∀ e ∈ known, L e.1) (labels' : ∀ e ∈ es, L e.1) :
    ∃ extra, extraLabels h known es = .ok extra ∧ ∀ v, v ∈ extra ↔
      (∃ e ∈ es, e.1.value = v) ∧ h.find? v known = .ok none := by
  induction es with
  | nil => exact ⟨[], rfl, by simp⟩
  | cons e rest ih =>
      obtain ⟨extra, listed, among⟩ := ih fun e later => labels' e (List.mem_cons_of_mem _ later)
      obtain ⟨r, found, _⟩ := answers.find? (labels' e List.mem_cons_self) labels
      cases r with
      | some c =>
          refine ⟨extra, by simp only [Snapshot.extraLabels, found, listed], fun v => ?_⟩
          simp only [among, List.mem_cons, exists_eq_or_imp]
          refine and_congr_left fun absent => ⟨.inr, fun some => some.resolve_left ?_⟩
          rintro rfl
          cases found.symm.trans absent
      | none =>
          refine ⟨e.1.value :: extra, by simp [Snapshot.extraLabels, found, listed, Except.map],
            fun v => ?_⟩
          simp only [among, List.mem_cons, exists_eq_or_imp]
          constructor
          · rintro (rfl | ⟨later, absent⟩)
            · exact ⟨.inl rfl, found⟩
            · exact ⟨.inr later, absent⟩
          · rintro ⟨rfl | later, absent⟩
            · exact .inl rfl
            · exact .inr ⟨later, absent⟩

/-- Children of a snapshot have labels, and what is missing is told of them as far as it can. -/
structure Children (h : Heap) (L : Key → Prop) (es : List (Key × Snapshot)) : Prop where
  labels : ∀ e ∈ es, L e.1
  missing : ∀ e ∈ es, ∀ side, Comes (Bare e.2) (e.2.missingItem h side)

theorem Asks.present {label : Value} (asks : Asks h s t label) :
    ∃ e ∈ s.children ++ t.children, e.1.value = label := by
  rcases asks with ⟨e, own, same⟩ | ⟨⟨e, other, same⟩, _⟩
  · exact ⟨e, List.mem_append_left _ own, same⟩
  · exact ⟨e, List.mem_append_right _ other, same⟩

theorem Answers.compareUnder (answers : Answers h L V W) (left : Children h L s.children)
    (right : Children h L t.children) (each : ∀ e ∈ s.children, ∀ e' ∈ t.children,
      Comes (Stuck h e.2 e'.2) (compare h e.2 e'.2).2) {e : Key × Snapshot}
    (present : e ∈ s.children ++ t.children) : Comes (StuckUnder h e.1.value s t)
      (compareUnder h (candidates h s.children) t.children e.1.value).2 := by
  have label : L e.1 := (List.mem_append.mp present).elim (left.labels e) (right.labels e)
  obtain ⟨r, found, known, absent⟩ := answers.find? label left.labels
  obtain ⟨r', found', known', absent'⟩ := answers.find? label right.labels
  unfold Snapshot.compareUnder
  rw [find?_candidates, found, found']
  cases r with
  | some u =>
      obtain ⟨e, inside, rfl⟩ := known u rfl
      cases r' with
      | some u' =>
          obtain ⟨e', inside', rfl⟩ := known' u' rfl
          refine (each e inside e' inside').congr ⟨fun stuck => ?_, .deeper found found'⟩
          cases stuck with
          | missing _ none => cases found'.symm.trans none
          | surplus none => cases found.symm.trans none
          | deeper one one' stuck =>
              cases found.symm.trans one
              cases found'.symm.trans one'
              exact stuck
      | none =>
          refine ((left.missing e inside false).map some).congr
            ⟨fun stuck => ?_, .missing found found'⟩
          cases stuck with
          | missing one _ bare =>
              cases found.symm.trans one
              exact bare
          | surplus none => cases found.symm.trans none
          | deeper _ one' => cases found'.symm.trans one'
  | none =>
      cases r' with
      | some u' =>
          obtain ⟨e', inside', rfl⟩ := known' u' rfl
          refine ((right.missing e' inside' true).map some).congr
            ⟨fun stuck => ?_, .surplus found found'⟩
          cases stuck with
          | missing one => cases found.symm.trans one
          | surplus _ one' bare =>
              cases found'.symm.trans one'
              exact bare
          | deeper one => cases found.symm.trans one
      | none =>
          rcases List.mem_append.mp present with inside | inside
          · exact absurd rfl (absent rfl e inside)
          · exact absurd rfl (absent' rfl e inside)

theorem Answers.compareLabels (answers : Answers h L V W) {stuck : Value → Prop}
    {step : Value → Noted (Option Snapshot)} {found : List (Key × Snapshot)} {vs : List Value}
    (keys : ∀ v ∈ vs, ∃ k, L k ∧ k.value = v) (steps : ∀ v ∈ vs, Comes (stuck v) (step v).2)
    (filed : ∀ e ∈ found, L e.1) :
    Comes (∃ v ∈ vs, stuck v) (compareLabels h step found vs).2 := by
  induction vs generalizing found with
  | nil => exact comes_of_ok (by simp) ⟨found, rfl⟩
  | cons v rest ih =>
      have others {found : List (Key × Snapshot)} (filed : ∀ e ∈ found, L e.1) :=
        ih (fun v later => keys v (List.mem_cons_of_mem _ later))
          (fun v later => steps v (List.mem_cons_of_mem _ later)) filed
      have here := steps v List.mem_cons_self
      rcases under : step v with ⟨notes, result⟩
      rw [under] at here
      by_cases bad : stuck v
      · refine comes_of_error ⟨v, List.mem_cons_self, bad⟩ ?_
        have raised := here.2 bad
        dsimp only at raised
        simp only [Snapshot.compareLabels, under, raised]
      · have later : (∃ w ∈ v :: rest, stuck w) ↔ ∃ w ∈ rest, stuck w := by
          simp only [List.mem_cons, exists_eq_or_imp]
          exact or_iff_right bad
        obtain ⟨r, told⟩ := here.1 bad
        dsimp only at told
        simp only [Snapshot.compareLabels, under, told]
        cases r with
        | none => exact (others filed).congr later
        | some d =>
            obtain ⟨k, label, rfl⟩ := keys v List.mem_cons_self
            obtain ⟨found', entered, kept⟩ := Heap.enter_ok (k.isFor h.equal) k d found
              fun e inside => answers.apart k e.1 label (filed e inside)
            have current : h.key k.value = .ok k := answers.current k label
            simp only [Heap.file, Heap.fileWith, current, entered]
            refine (others fun e inside => ?_).congr later
            rcases kept e inside with new | ⟨e', old, same⟩
            · exact new ▸ label
            · exact same ▸ filed e' old

/-- A composite that is looked into tells the differences inside it: where only the value of an entry
    differs, the entry has a key. -/
theorem Shows.composed (shows : Shows h L V s) (fresh : ¬ s.head.alreadyReferenced)
    (ds : List (Key × Snapshot)) : ∃ r, (Snapshot.composite h s ds).2 = .ok r := by
  obtain ⟨name, told⟩ : ∃ name, noteName h s.head = .ok name := by
    unfold noteName
    split
    · exact shows.named ‹_›
    · exact ⟨_, rfl⟩
  have key (entry : s.head.type = entryClass) : ∃ u, s.requireChild h "key" = .ok u := by
    cases shows with
    | leaf _ _ _ type => exact absurd entry type
    | composite _ _ furnished =>
        obtain ⟨k, v, rfl⟩ := (furnished entry).fresh fresh
        exact ⟨k, (find_entry k v).1⟩
  unfold Snapshot.composite
  split
  · exact ⟨none, rfl⟩
  · dsimp only
    split
    · -- Only the key of an entry is asked for, and it is there.
      rename_i failed
      split at failed
      · rename_i lone
        simp only [Bool.and_eq_true, beq_iff_eq] at lone
        obtain ⟨u, found⟩ := key lone.1.1
        rw [found] at failed
        cases failed
      · cases failed
    · simp only [told]
      exact ⟨_, rfl⟩

theorem Answers.compareChildren (answers : Answers h L V W) (left : Children h L s.children)
    (right : Children h L t.children) (each : ∀ e ∈ s.children, ∀ e' ∈ t.children,
      Comes (Stuck h e.2 e'.2) (compare h e.2 e'.2).2) :
    Comes (∃ label, Asks h s t label ∧ StuckUnder h label s t)
      (compareChildren h (candidates h s.children) t.children).2 := by
  have known : ∀ e ∈ candidates h s.children, L e.1 := by
    rw [candidates_eq]
    exact List.forall_mem_map.mpr left.labels
  obtain ⟨extra, listed, among⟩ := answers.extraLabels known right.labels
  have asks (v : Value) : v ∈ s.children.map (·.1.value) ++ extra ↔ Asks h s t v := by
    rw [List.mem_append, List.mem_map, among, find?_candidates]
    refine or_congr Iff.rfl (and_congr Iff.rfl ?_)
    cases h.find? v s.children with
    | error f => simp [Except.map]
    | ok r => cases r <;> simp [Except.map]
  unfold Snapshot.compareChildren
  rw [listed, candidates_eq, List.map_map, ← candidates_eq]
  have labels (v : Value) (inside : v ∈ s.children.map (·.1.value) ++ extra) :=
    ((asks v).mp inside).present
  have whole : Comes (∃ v ∈ s.children.map (·.1.value) ++ extra, StuckUnder h v s t)
      (Snapshot.compareLabels h (Snapshot.compareUnder h (candidates h s.children) t.children) []
        (s.children.map (·.1.value) ++ extra)).2 := by
    refine answers.compareLabels (fun v inside => ?_) (fun v inside => ?_) (by simp)
    · obtain ⟨e, member, rfl⟩ := labels v inside
      exact ⟨e.1, (List.mem_append.mp member).elim (left.labels e) (right.labels e), rfl⟩
    · obtain ⟨e, member, rfl⟩ := labels v inside
      exact answers.compareUnder left right each member
  exact whole.congr (exists_congr fun v => and_congr_left' (asks v).symm)

/-- A comparison comes as far as those of the children do. -/
theorem Answers.compare (answers : Answers h L V W) (left : Shows h L V s) (right : Shows h L W t)
    (shown : Children h L s.children) (shown' : Children h L t.children)
    (each : ∀ e ∈ s.children, ∀ e' ∈ t.children,
      Comes (Stuck h e.2 e'.2) (compare h e.2 e'.2).2) :
    Comes (Stuck h s t) (compare h s t).2 := by
  obtain ⟨head, children⟩ := s
  simp only [Snapshot.compare]
  cases heads : Snapshot.compareHeads h (.node head children) t with
  | some result =>
      refine comes_of_ok ?_ (answers.compareHeads left right heads)
      rintro ⟨on, _, _⟩
      cases heads.symm.trans on
  | none =>
      have same : Stuck h (.node head children) t ↔ ∃ label, Asks h (.node head children) t label ∧
          StuckUnder h label (.node head children) t := by
        constructor
        · rintro ⟨_, asks, stuck⟩
          exact ⟨_, asks, stuck⟩
        · rintro ⟨_, asks, stuck⟩
          exact .under heads asks stuck
      have under : Comes (Stuck h (.node head children) t)
          (Snapshot.compareChildren h (candidates h children) t.children).2 :=
        (answers.compareChildren shown shown' each).congr same
      rcases compared : Snapshot.compareChildren h (candidates h children) t.children with
        ⟨notes, result⟩
      rw [compared] at under
      refine ⟨fun free => ?_, fun bad => ?_⟩
      · obtain ⟨ds, told⟩ := under.1 free
        cases told
        exact left.composed (fresh_of_compareHeads heads) ds
      · have raised := under.2 bad
        dsimp only at raised
        simp only [raised]

end Compared

theorem Shows.inner (shows : Shows h L V s) : ∀ e ∈ s.children, Shows h L V e.2 := by
  cases shows with
  | leaf => simp [Snapshot.children]
  | composite _ _ _ _ inner => exact inner

theorem Shows.children (shows : Shows h L V s)
    (written : ∀ v, V v → h.isLeaf v → ∃ text, h.summarize (h.freeze v) = .ok text) :
    Children h L s.children := by
  cases shows with
  | leaf => exact ⟨by simp [Snapshot.children], by simp [Snapshot.children]⟩
  | composite _ _ _ labels inner =>
      exact ⟨labels, fun e inside => (inner e inside).missingItem written⟩

/-- A comparison of what is answered comes to its end, unless it is stuck. -/
theorem Answers.returns (answers : Answers h L V W) (left : Shows h L V s) (right : Shows h L W t) :
    Comes (Stuck h s t) (Snapshot.compare h s t).2 := by
  have written (v : Value) (inside : V v) := answers.written v (.inl inside)
  have written' (v : Value) (inside : W v) := answers.written v (.inr inside)
  have step {s t : Snapshot} (left : Shows h L V s) (right : Shows h L W t)
      (each : ∀ e ∈ s.children, ∀ t, Shows h L W t →
        Comes (Stuck h e.2 t) (Snapshot.compare h e.2 t).2) :
      Comes (Stuck h s t) (Snapshot.compare h s t).2 :=
    answers.compare left right (left.children written) (right.children written')
      fun e inside e' inside' => each e inside e'.2 (right.inner e' inside')
  induction left generalizing t with
  | leaf named inside leaf type =>
      exact step (.leaf named inside leaf type) right (by simp [Snapshot.children])
  | composite named leaf furnished labels inner ih =>
      exact step (.composite named leaf furnished labels inner) right fun e inside t right =>
        ih e inside right

theorem Shows.entry_of_bare (shows : Shows h L V s) (bare : Bare s) :
    ∃ v, V v ∧ h.typeOf v = entryClass := by
  cases shows with
  | leaf _ _ _ type => exact absurd bare.1 type
  | composite _ _ furnished => exact ((furnished bare.1).met bare.2).2

/-- Where a comparison is stuck, an object of the class of entries is shown. -/
theorem Shows.entry_of_stuck (left : Shows h L V s) (right : Shows h L W t)
    (stuck : Stuck h s t) : ∃ v, (V v ∨ W v) ∧ h.typeOf v = entryClass := by
  have among {label : Value} {u : Snapshot} {es : List (Key × Snapshot)}
      (found : h.find? label es = .ok (some u)) : ∃ e ∈ es, e.2 = u := by
    simp only [Heap.find?, Heap.under?] at found
    split at found
    · cases found
    · obtain ⟨k, member, _⟩ := Entries.search_ok found
      exact ⟨_, member, rfl⟩
  have step {s t : Snapshot} (left : Shows h L V s) (right : Shows h L W t)
      (each : ∀ e ∈ s.children, ∀ t, Shows h L W t → Stuck h e.2 t →
        ∃ v, (V v ∨ W v) ∧ h.typeOf v = entryClass) (stuck : Stuck h s t) :
      ∃ v, (V v ∨ W v) ∧ h.typeOf v = entryClass := by
    obtain ⟨_, _, under⟩ := stuck
    cases under with
    | missing found _ bare =>
        obtain ⟨e, inside, rfl⟩ := among found
        obtain ⟨v, shown, type⟩ := (left.inner e inside).entry_of_bare bare
        exact ⟨v, .inl shown, type⟩
    | surplus _ found bare =>
        obtain ⟨e, inside, rfl⟩ := among found
        obtain ⟨v, shown, type⟩ := (right.inner e inside).entry_of_bare bare
        exact ⟨v, .inr shown, type⟩
    | deeper found found' stuck =>
        obtain ⟨e, inside, rfl⟩ := among found
        obtain ⟨e', inside', rfl⟩ := among found'
        exact each e inside _ (right.inner e' inside') stuck
  induction left generalizing t with
  | leaf named inside leaf type =>
      exact step (.leaf named inside leaf type) right (by simp [Snapshot.children]) stuck
  | composite named leaf furnished labels inner ih =>
      exact step (.composite named leaf furnished labels inner) right
        (fun e inside t right stuck => ih e inside right stuck) stuck

end Snapshot

namespace Heap

variable (h : Heap)

/-- A label under which members of two values may be shown. -/
def LabelWithin (a b : Value) (k : Key) : Prop :=
  (∃ s, k = .text s) ∨ ∃ n, h.Names a b n ∧ h.key n = .ok k

/-- What is asked about the difference of two values is answered: labels can be told apart, what
    leaves keep can be written and compared, and names can be written. -/
structure Answered (a b : Value) : Prop where
  apart : ∀ k k', h.LabelWithin a b k → h.LabelWithin a b k' → ∃ r, k.isFor h.equal k' = .ok r
  named : ∀ n, h.Names a b n → Snapshot.Named h n
  written : ∀ v, h.Passed a b v → h.isLeaf v → ∃ text, h.summarize (h.freeze v) = .ok text
  compared : ∀ x y, h.PassesBy a x → h.PassesBy b y → h.isLeaf x → h.isLeaf y →
    h.typeOf x = h.typeOf y → ∃ r, h.contentEqual (h.freeze x) (h.freeze y) = .ok r
  /-- Only entries of mappings are of their class. -/
  reserved : ∀ v, h.Passed a b v → h.typeOf v ≠ entryClass

/-- An object of the class of entries, whose fields are its key and its value. -/
def IsEntry (v : Value) : Prop := ∃ c, v = .ref c ∧ (h.object c).body = .plain ∧
  (h.classes (h.object c).cls).source = .described Standard.describeEntry

/-- As `Answered`, where objects of the class of entries may be among the values. -/
structure Told (a b : Value) : Prop where
  apart : ∀ k k', h.LabelWithin a b k → h.LabelWithin a b k' → ∃ r, k.isFor h.equal k' = .ok r
  named : ∀ n, h.Names a b n → Snapshot.Named h n
  written : ∀ v, h.Passed a b v → h.isLeaf v → ∃ text, h.summarize (h.freeze v) = .ok text
  compared : ∀ x y, h.PassesBy a x → h.PassesBy b y → h.isLeaf x → h.isLeaf y →
    h.typeOf x = h.typeOf y → ∃ r, h.contentEqual (h.freeze x) (h.freeze y) = .ok r
  entries : ∀ v, h.Passed a b v → h.typeOf v = entryClass → h.IsEntry v

variable {h} {a b c v : Value}

/-! ## Snapshots of values -/

theorem enter_forall {A : Key → Prop} {B : Snapshot → Prop} {isKey : Key → Except Fault Bool}
    {key : Key} {s : Snapshot} {es es' : List (Key × Snapshot)}
    (entered : Entries.enter isKey key s es = .ok es') (label : A key) (shown : B s)
    (all : ∀ e ∈ es, A e.1 ∧ B e.2) : ∀ e ∈ es', A e.1 ∧ B e.2 := by
  rcases enter_cases entered with ⟨before, k, y, after, rfl, _, rfl⟩ | ⟨_, rfl⟩
  · obtain ⟨first, there, later⟩ := List.forall_mem_append.mp all |>.imp_right
      List.forall_mem_cons.mp
    exact List.forall_mem_append.mpr ⟨first, List.forall_mem_cons.mpr ⟨⟨there.1, shown⟩, later⟩⟩
  · exact List.forall_mem_append.mpr ⟨all, List.forall_mem_singleton.mpr ⟨label, shown⟩⟩

theorem labelled_forall {A : Key → Prop} {B : Snapshot → Prop}
    {built children : List (Key × Snapshot)} (labelled : h.labelled built = .ok children)
    (all : ∀ e ∈ built, A e.1 ∧ B e.2) : ∀ e ∈ children, A e.1 ∧ B e.2 := by
  have whole := labelled_invariant (P := fun kept later => ∀ e ∈ kept ++ later, A e.1 ∧ B e.2)
    labelled all fun kept kept' e rest before entered => by
      obtain ⟨old, new⟩ := List.forall_mem_append.mp before
      obtain ⟨first, others⟩ := List.forall_mem_cons.mp new
      exact List.forall_mem_append.mpr ⟨enter_forall entered first.1 first.2 old, others⟩
  simpa using whole

theorem Walked.shown {budget : Nat} {seen last : List Address} {ps : List Part}
    {children : List (Key × Snapshot)} (walked : h.Walked budget last seen ps children) :
    ∀ e ∈ children, ∃ p ∈ ps, ∃ before after, h.Shown budget before p after e := by
  induction walked with
  | nil => simp
  | cons shown _ ih =>
      refine List.forall_mem_cons.mpr ⟨⟨_, List.mem_cons_self, _, _, shown⟩, fun e later => ?_⟩
      exact (ih e later).imp fun _ found => found.imp_left (List.mem_cons_of_mem _)

theorem IsEntry.shape (entry : h.IsEntry v) : ∃ c, h.shape v = .structured c := by
  obtain ⟨c, rfl, body, source⟩ := entry
  exact ⟨c, by simp only [Heap.shape, body, hasFieldSource, source, if_true]⟩

theorem describeEntry_ok {objects : Objects} {c : Address} {d : Description}
    (told : Standard.describeEntry objects c = .ok d) :
    ∃ k x, d = .fields [(.text "key", k), (.text "value", x)] := by
  simp only [Standard.describeEntry, bind, Except.bind, pure, Except.pure] at told
  cases key : (objects[c]?.getD .blank).own? "key" with
  | none => simp [key] at told
  | some k =>
      cases value : (objects[c]?.getD .blank).own? "value" with
      | none => simp [key, value] at told
      | some x => exact ⟨k, x, by simpa [key, value] using told.symm⟩

theorem IsEntry.parts {ps : List Part} (entry : h.IsEntry v) (members : h.HasParts v ps) :
    ∃ k x, ps = [.field (.text "key") k, .field (.text "value") x] := by
  obtain ⟨c, rfl, body, source⟩ := entry
  have shape : h.shape (.ref c) = .structured c := by
    simp only [Heap.shape, body, hasFieldSource, source, if_true]
  have shared : h.sharedFields c = .ok [] := by simp only [sharedFields, source]
  unfold HasParts Heap.parts at members
  simp only [shape, shared, fields, body, source, List.nil_append] at members
  cases told : Standard.describeEntry h.objects c with
  | error f => simp [told, Except.map] at members
  | ok d =>
      obtain ⟨k, x, rfl⟩ := describeEntry_ok told
      simp only [told, Except.map, Except.ok.injEq] at members
      exact ⟨k, x, (map_ok_inj.mp members).symm⟩

theorem labelled_entry (s t : Snapshot) :
    h.labelled [(.text "key", s), (.text "value", t)] =
      .ok [(.text "key", s), (.text "value", t)] := by
  have apart : (Key.text "value").isFor h.equal (.text "key") = .ok false := isFor_texts _ _
  simp only [labelled, List.foldlM_cons, List.foldlM_nil, Entries.enter, bind, Except.bind, apart,
    Except.map, pure, Except.pure]

theorem Walked.entry {budget : Nat} {seen last : List Address} {k x : Value}
    {built children : List (Key × Snapshot)}
    (walked : h.Walked budget last seen [.field (.text "key") k, .field (.text "value") x] built)
    (labelled : h.labelled built = .ok children) :
    ∃ s t, children = [(.text "key", s), (.text "value", t)] := by
  obtain ⟨s, t, rfl⟩ : ∃ s t, built = [(.text "key", s), (.text "value", t)] := by
    cases walked with
    | cons first walked =>
        cases walked with
        | cons second walked =>
            cases walked
            cases first with
            | field _ made =>
                cases second with
                | field _ made' =>
                    cases made
                    cases made'
                    exact ⟨_, _, rfl⟩
  exact ⟨s, t, Except.ok.inj (labelled.symm.trans (labelled_entry s t))⟩

/-- A snapshot shows what a walk comes by. -/
theorem Told.shows (told : h.Told a b) (passed : ∀ u, h.PassesBy c u → h.Passed a b u)
    {budget : Nat} {seen last : List Address} {label : Value} {s : Snapshot}
    (passes : h.PassesBy c v) (named : Snapshot.Named h label)
    (built : h.buildWithin budget seen label v = (last, .ok s)) :
    Snapshot.Shows h (h.LabelWithin a b) (h.PassesBy c) s := by
  induction budget generalizing seen last label v s with
  | zero => cases built
  | succ budget ih =>
      have entry := told.entries v (passed v passes)
      cases buildWithin_drawing built with
      | leaf address =>
          refine .leaf named passes (isLeaf_iff.mpr address) fun type => ?_
          obtain ⟨c, shape⟩ := (entry type).shape
          rw [shape] at address
          cases address
      | again =>
          exact .composite named rfl (fun type => ⟨fun fresh => absurd rfl fresh,
            fun _ => ⟨rfl, v, passes, type⟩⟩) (by simp) (by simp)
      | @whole _ _ _ _ _ ps built _ children address _ members walked labelled =>
          have each : ∀ e ∈ children, h.LabelWithin a b e.1 ∧
              Snapshot.Shows h (h.LabelWithin a b) (h.PassesBy c) e.2 := by
            refine labelled_forall labelled fun e inside => ?_
            obtain ⟨p, present, _, _, shown⟩ := walked.shown e inside
            have below (u : Value) (holds : u ∈ p.values) : h.PassesBy c u :=
              passes.member members present holds
            cases shown with
            | item built =>
                exact ⟨.inl ⟨_, rfl⟩, ih (below _ (by simp [Part.values]))
                  (Snapshot.named_text _) built⟩
            | field built made =>
                have name : h.Names a b _ := ⟨v, _, _, passed v passes, members, present⟩
                exact ⟨.inr ⟨_, name, made⟩, ih (below _ (by simp [Part.values]))
                  (told.named _ name) built⟩
            | entry _ built built' =>
                have key := ih (below _ (by simp [Part.values])) (Snapshot.named_text _) built
                have value := ih (below _ (by simp [Part.values])) (Snapshot.named_text _) built'
                exact ⟨.inl ⟨_, rfl⟩, .composite (Snapshot.named_text _) rfl
                  (fun _ => ⟨fun _ => ⟨_, _, rfl⟩, fun met => absurd met Bool.false_ne_true⟩)
                  (List.forall_mem_cons.mpr
                    ⟨.inl ⟨_, rfl⟩, List.forall_mem_singleton.mpr (.inl ⟨_, rfl⟩)⟩)
                  (List.forall_mem_cons.mpr ⟨key, List.forall_mem_singleton.mpr value⟩)⟩
          refine .composite named rfl (fun type => ⟨fun _ => ?_,
            fun met => absurd met Bool.false_ne_true⟩)
            (fun e inside => (each e inside).1) fun e inside => (each e inside).2
          obtain ⟨k, x, rfl⟩ := (entry type).parts members
          exact walked.entry labelled

theorem LabelWithin.current {k : Key} (label : h.LabelWithin a b k) : h.Current k := by
  rcases label with ⟨s, rfl⟩ | ⟨n, _, made⟩
  · exact key_text s
  · have value := key_value made
    subst value
    exact made

theorem Told.answers (told : h.Told a b) :
    Snapshot.Answers h (h.LabelWithin a b) (h.PassesBy a) (h.PassesBy b) where
  current _ label := label.current
  apart := told.apart
  written := told.written
  compared := told.compared

theorem Told.both {s t : Snapshot} (told : h.Told a b) (left : h.snapshot a = .ok s)
    (right : h.snapshot b = .ok t) : Snapshot.Shows h (h.LabelWithin a b) (h.PassesBy a) s ∧
      Snapshot.Shows h (h.LabelWithin a b) (h.PassesBy b) t := by
  have null : Snapshot.Named h .null := fun truth => nomatch truth
  exact ⟨told.shows (fun _ => .inl) .self null (Prod.ext rfl left),
    told.shows (fun _ => .inr) .self null (Prod.ext rfl right)⟩

/-- A difference of snapshots is told where what is asked about it is answered, unless it is stuck. -/
theorem Told.comes {s t : Snapshot} (told : h.Told a b) (left : h.snapshot a = .ok s)
    (right : h.snapshot b = .ok t) : Snapshot.Comes (Snapshot.Stuck h s t) (s.diff h (some t)).2 := by
  obtain ⟨shown, shown'⟩ := told.both left right
  exact told.answers.returns shown shown'

/-- A comparison of snapshots is stuck only where an object of the class of entries is met. -/
theorem Told.entry_of_stuck {s t : Snapshot} (told : h.Told a b) (left : h.snapshot a = .ok s)
    (right : h.snapshot b = .ok t) (stuck : Snapshot.Stuck h s t) :
    ∃ v, h.Passed a b v ∧ h.typeOf v = entryClass := by
  obtain ⟨shown, shown'⟩ := told.both left right
  exact shown.entry_of_stuck shown' stuck

theorem Answered.told (answered : h.Answered a b) : h.Told a b where
  apart := answered.apart
  named := answered.named
  written := answered.written
  compared := answered.compared
  entries v passed type := absurd type (answered.reserved v passed)

/-- A difference of snapshots is told where what is asked about it is answered. -/
theorem Answered.diff {s t : Snapshot} (answered : h.Answered a b) (left : h.snapshot a = .ok s)
    (right : h.snapshot b = .ok t) : ∃ r, (s.diff h (some t)).2 = .ok r := by
  refine (answered.told.comes left right).1 fun stuck => ?_
  obtain ⟨v, passed, type⟩ := answered.told.entry_of_stuck left right stuck
  exact answered.reserved v passed type

end Heap

end Assay
