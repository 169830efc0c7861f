import Assay.Proofs.Snapshot.Findings
import Assay.Proofs.Snapshot.Rebuilt

/-! # Leaves that have been replaced

The difference between a tree and the same tree with other leaves in some places tells these leaves,
and nothing else: all that has been built again for them is of the same classes and stands under the
same labels.
-/

namespace Assay

namespace Heap

open Snapshot (Finds FindsEach LabelsTold placedUnder)

variable {h : Heap} {v w x y : Value} {p q : Part} {ps qs : List Part} {t t' : List Meeting}
  {cs cs' : List Replacement} {s s' : Snapshot} {budget : Nat} {label : Value}
  {seen seen' mid mid' last last' : List Address} {es es' : List (Key × Snapshot)}

/-! ## Labels -/

theorem Walked.labelsTold (tells : h.Tells x) (members : h.HasParts x ps)
    (differ : h.LabelsDiffer ps) (walked : h.Walked budget last seen ps es) :
    LabelsTold h (es.map (·.1)) where
  current := List.forall_mem_map.mpr fun e inside => by
    obtain ⟨p, _, depicts⟩ := (forall₂_mem walked.pictures).2 e inside
    exact depicts.labels.current
  total := List.forall_mem_map.mpr fun e inside => List.forall_mem_map.mpr fun e' inside' => by
    obtain ⟨p, member, depicts⟩ := (forall₂_mem walked.pictures).2 e inside
    obtain ⟨p', member', depicts'⟩ := (forall₂_mem walked.pictures).2 e' inside'
    exact tells.isFor members member member' depicts.labels depicts'.labels
  apart := List.pairwise_map.mpr ((labelsDiffer_iff walked.pictures).mp differ)

theorem entry_labelsTold : LabelsTold h [.text "key", .text "value"] where
  current k inside := by
    simp only [List.mem_cons, List.not_mem_nil, or_false] at inside
    rcases inside with rfl | rfl <;> exact key_text _
  total k inside k' inside' := by
    simp only [List.mem_cons, List.not_mem_nil, or_false] at inside inside'
    rcases inside with rfl | rfl <;> rcases inside' with rfl | rfl <;> exact ⟨_, isFor_texts _ _⟩
  apart := by
    have apart : (Key.text "value").isFor h.equal (.text "key") = .ok false := isFor_texts _ _
    simp [apart]

variable (h) in
/-- A node can be named by its label. -/
def Nameable (label : Value) : Prop := h.truth label → ∃ text, h.display label = .ok text

theorem Nameable.noteName (nameable : h.Nameable label) {head : Head} (under : head.label = label) :
    ∃ name, Snapshot.noteName h head = .ok name := by
  unfold Snapshot.noteName
  rw [under]
  by_cases shown : h.truth label
  · simpa only [shown, if_true] using nameable shown
  · exact ⟨head.type, by simp only [shown]; rfl⟩

theorem nameable_text (text : String) : h.Nameable (.text text) := fun _ => ⟨text, rfl⟩

/-! ## Replacements that are told -/

/-- What is told of replacements, given how leaves are written. -/
def told (text : Value → String) (cs : List Replacement) : List (List Value × String × String) :=
  cs.map fun c => (c.1, text c.2.1, text c.2.2)

theorem told_append (text : Value → String) :
    told text (cs ++ cs') = told text cs ++ told text cs' :=
  List.map_append

theorem told_under (text : Value → String) (n : Value) (labels : List Value) :
    told text (replacedUnder (n :: labels) cs) =
      placedUnder n (told text (replacedUnder labels cs)) := by
  simp [told, replacedUnder, placedUnder]

theorem told_here (text : Value → String) : told text (replacedUnder [] cs) = told text cs := by
  simp [told, replacedUnder]

theorem told_nil_iff (text : Value → String) : told text cs = [] ↔ cs = [] := List.map_eq_nil_iff

/-! ## What has been entered -/

variable (h) in
/-- A walk has entered only composites that are built again, and such as belong to a class. -/
def Grown (v : Value) (t : List Meeting) (seen mid : List Address) : Prop :=
  ∀ c ∈ mid, c ∈ seen ∨ c ∈ composites t ∨ h.MeetsShared v c

variable (h) in
/-- Composites that are built again are all different, and have not been entered before. -/
structure Novel (v : Value) (t : List Meeting) (seen seen' : List Address) : Prop where
  once : (composites t).Nodup
  own : ∀ c ∈ composites t, ¬ h.MeetsShared v c
  new : ∀ c ∈ composites t, c ∉ seen
  new' : ∀ c ∈ composites t, c ∉ seen'

theorem composites_append : composites (t ++ t') = composites t ++ composites t' :=
  List.flatMap_append

theorem Novel.left (novel : h.Novel v (t ++ t') seen seen') : h.Novel v t seen seen' := by
  obtain ⟨once, own, new, new'⟩ := novel
  rw [composites_append] at once own new new'
  exact ⟨(List.nodup_append.mp once).1, fun c inside => own c (List.mem_append_left _ inside),
    fun c inside => new c (List.mem_append_left _ inside),
    fun c inside => new' c (List.mem_append_left _ inside)⟩

theorem Novel.right (novel : h.Novel v (t ++ t') seen seen') (grown : h.Grown v t seen mid)
    (grown' : h.Grown v t seen' mid') : h.Novel v t' mid mid' := by
  obtain ⟨once, own, new, new'⟩ := novel
  rw [composites_append] at once own new new'
  obtain ⟨_, later, apart⟩ := List.nodup_append.mp once
  have unseen {seen mid : List Address} (grown : h.Grown v t seen mid)
      (new : ∀ c ∈ composites t ++ composites t', c ∉ seen) (c : Address)
      (inside : c ∈ composites t') : c ∉ mid := by
    intro present
    have further := List.mem_append_right (composites t) inside
    rcases grown c present with old | here | shared
    · exact new c further old
    · exact apart c here c inside rfl
    · exact own c further shared
  exact ⟨later, fun c inside => own c (List.mem_append_right _ inside), unseen grown new,
    unseen grown' new'⟩

theorem MeetsShared.of_passes {c : Address} (passes : h.PassesBy v x) (met : h.MeetsShared x c) :
    h.MeetsShared v c := by
  obtain ⟨u, ⟨z, ps, p, y, further, ofClass, inside, holds, below⟩, address⟩ := met
  exact ⟨u, ⟨z, ps, p, y, passes.trans further, ofClass, inside, holds, below⟩, address⟩

/-! ## The difference -/

variable (h) in
/-- What is asked of a value for which another one is built, on top of what is said of the two. -/
structure Renewable (v w : Value) : Prop where
  enumerates : h.Enumerates v
  apart : h.AllApart v
  leaves : ∀ u, h.PassesBy v u → h.isLeaf u → h.leafEqual u u = .ok true
  entries : h.EntriesFormed v
  formed : h.FormedByClass v w

variable (h) in
/-- The leaves on both sides can be written, and so can the labels above them. -/
structure Written (text : Value → String) (cs : List Replacement) : Prop where
  texts : ∀ c ∈ cs, h.summarize (h.freeze c.2.1) = .ok (text c.2.1) ∧
    h.summarize (h.freeze c.2.2) = .ok (text c.2.2)
  names : ∀ c ∈ cs, ∀ n ∈ c.1.dropLast, h.Nameable n

variable (h) in
/-- Snapshots of what is built again, taken within a budget, tell what has been replaced. -/
def FindsWithin (v w : Value) (text : Value → String) (budget : Nat) : Prop :=
  ∀ {x y t cs seen seen' label last last' s s'}, h.PassesBy v x → h.PassesBy w y →
    h.Rebuilt x y t cs → h.Novel v t seen seen' → h.Written text (replacedUnder [label] cs) →
    h.buildWithin budget seen label x = (last, .ok s) →
    h.buildWithin budget seen' label y = (last', .ok s') → Finds h s s' (told text cs)

variable {text : Value → String}

theorem replacedUnder_cons (n : Value) (labels : List Value) :
    replacedUnder (n :: labels) cs = replacedUnder [n] (replacedUnder labels cs) := by
  simp [replacedUnder]

theorem mem_replacedUnder {c : Replacement} (inside : c ∈ cs) :
    (label :: c.1, c.2) ∈ replacedUnder [label] cs :=
  List.mem_map_of_mem (f := fun c : Replacement => ([label] ++ c.1, c.2)) inside

theorem Written.nil : h.Written text [] := ⟨by simp, by simp⟩

theorem Written.split (written : h.Written text (cs ++ cs')) :
    h.Written text cs ∧ h.Written text cs' := by
  obtain ⟨texts, names⟩ := written
  rw [List.forall_mem_append] at texts names
  exact ⟨⟨texts.1, names.1⟩, ⟨texts.2, names.2⟩⟩

theorem Written.below (written : h.Written text (replacedUnder [label] cs)) :
    h.Written text cs where
  texts c inside := written.texts (label :: c.1, c.2) (mem_replacedUnder inside)
  names c inside n above := by
    apply written.names _ (mem_replacedUnder inside)
    cases path : c.1 with
    | nil => simp [path] at above
    | cons n' rest =>
        rw [path] at above
        simpa using .inr above

/-- A node above a leaf that has been replaced can be named. -/
theorem Written.above (written : h.Written text (replacedUnder [label] cs)) (some : cs ≠ [])
    (paths : ∀ c ∈ cs, c.1 ≠ []) : h.Nameable label := by
  obtain ⟨c, inside⟩ := List.exists_mem_of_ne_nil cs some
  apply written.names _ (mem_replacedUnder inside)
  obtain ⟨n, rest, path⟩ := List.exists_cons_of_ne_nil (paths c inside)
  simp [path]

theorem RebuiltPart.paths {R : Value → Value → List Meeting → List Replacement → Prop}
    (rebuilt : h.RebuiltPart R p q t cs) : ∀ c ∈ cs, c.1 ≠ [] := by
  cases rebuilt <;> exact List.forall_mem_map.mpr (by simp)

theorem RebuiltParts.paths {R : Value → Value → List Meeting → List Replacement → Prop}
    (rebuilt : h.RebuiltParts R ps qs t cs) : ∀ c ∈ cs, c.1 ≠ [] := by
  induction rebuilt with
  | nil => simp
  | cons part _ ih => exact List.forall_mem_append.mpr ⟨part.paths, ih⟩

/-! ### Leaves, and what is shared -/

theorem Drawing.agrees {budget' : Nat} {label' : Value}
    (plain : (h.classes "object").equality = .identity)
    (itself : h.isLeaf x → h.leafEqual x x = .ok true)
    (drawing : h.Drawing budget seen label x last s)
    (drawing' : h.Drawing budget' seen' label' x last' s') : Snapshot.Agrees h s s' := by
  apply Snapshot.agrees_iff.mpr
  by_cases leaf : h.isLeaf x
  · have here := drawing.isLeaf.mpr leaf
    have there := drawing'.isLeaf.mpr leaf
    apply Snapshot.Agreement.leaf (drawing.type.trans drawing'.type.symm) here there
    rw [drawing.content here, drawing'.content there]
    exact (contentEqual_freeze plain rfl rfl).mpr (itself leaf)
  · apply Snapshot.Agreement.same
    · rw [drawing.identity, Option.isSome_iff_ne_none]
      exact isLeaf_iff.not.mp leaf
    · rw [drawing.identity, drawing'.identity]

/-- What belongs to a class is the same on both sides. -/
theorem Walked.finds_shared (plain : (h.classes "object").equality = .identity)
    (fields : ∀ p ∈ ps, ∃ n u, p = .field n u ∧ (h.isLeaf u → h.leafEqual u u = .ok true))
    (walked : h.Walked budget mid seen ps es) (walked' : h.Walked budget mid' seen' ps es') :
    FindsEach h es es' [] := by
  induction walked generalizing seen' es' with
  | nil =>
      cases walked'
      exact .nil
  | cons shown _ ih =>
      obtain ⟨⟨n, u, rfl, itself⟩, later⟩ := List.forall_mem_cons.mp fields
      cases walked' with
      | cons shown' walked' =>
          cases shown with
          | field built known =>
              cases shown' with
              | field built' known' =>
                  cases known.symm.trans known'
                  have agrees := (buildWithin_drawing built).agrees plain itself
                    (buildWithin_drawing built')
                  exact .cons agrees.finds (ih later walked')

theorem finds_replaced {text : Value → String} (plain : (h.classes "object").equality = .identity)
    (leaf : h.isLeaf x) (leaf' : h.isLeaf y)
    (differ : h.typeOf x ≠ h.typeOf y ∨ h.leafEqual x y = .ok false)
    (formed : h.typeOf x = h.typeOf y → h.form x = h.form y)
    (texts : h.summarize (h.freeze x) = .ok (text x) ∧ h.summarize (h.freeze y) = .ok (text y))
    (drawing : h.Drawing budget seen label x last s)
    (drawing' : h.Drawing budget seen' label y last' s') :
    Finds h s s' [([], text x, text y)] := by
  have here := drawing.isLeaf.mpr leaf
  have there := drawing'.isLeaf.mpr leaf'
  have content := drawing.content here
  have content' := drawing'.content there
  have whole : s.head.identity = none := drawing.identity.trans (isLeaf_iff.mp leaf)
  apply Snapshot.finds_leaf
  · simp only [Snapshot.summary, here, if_true, content, texts.1]
  · simp only [Snapshot.summary, there, if_true, content', texts.2]
  · have distinct : Snapshot.Distinct s s' := fun some => by simp [whole] at some
    by_cases types : h.typeOf x = h.typeOf y
    · have same : s.head.type = s'.head.type := by rw [drawing.type, drawing'.type, types]
      have unequal : h.contentEqual (h.freeze x) (h.freeze y) = .ok false :=
        (contentEqual_freeze plain types (formed types)).mpr
          (differ.resolve_left fun other => other types)
      rw [← content, ← content'] at unequal
      exact (Snapshot.Heads.unequal distinct same here there unequal).eq
    · rw [← drawing.type, ← drawing'.type] at types
      exact (Snapshot.Heads.types distinct types).eq

/-! ### What has been entered -/

theorem Grown.trans (first : h.Grown v t seen mid) (second : h.Grown v t' mid last) :
    h.Grown v (t ++ t') seen last := by
  intro c present
  rw [composites_append]
  rcases second c present with before | here | shared
  · exact (first c before).imp_right (Or.imp_left (List.mem_append_left _))
  · exact .inr (.inl (List.mem_append_right _ here))
  · exact .inr (.inr shared)

/-- A walk through what is built again enters nothing else, but for what belongs to a class. -/
theorem Rebuilt.grown (rebuilt : h.Rebuilt x y t cs) (passes : h.PassesBy v x)
    (built : h.buildWithin budget seen label x = (last, .ok s)) : h.Grown v t seen last := by
  intro c present
  rcases entersMet budget built c present with old | met
  · exact .inl old
  · exact .inr ((rebuilt.meets met).imp_right fun shared => shared.of_passes passes)

theorem Rebuilt.grown_new (renewable : h.Renewable v w) (rebuilt : h.Rebuilt x y t cs)
    (left : h.PassesBy v x) (right : h.PassesBy w y)
    (built : h.buildWithin budget seen label y = (last, .ok s)) : h.Grown v t seen last := by
  have formed : h.FormedByClass x y := fun u u' reached reached' =>
    renewable.formed u u' (left.trans reached) (right.trans reached')
  have enumerates : h.Enumerates x := fun u reached =>
    renewable.enumerates u (left.trans reached)
  intro c present
  rcases entersMet budget built c present with old | met
  · exact .inl old
  · exact .inr ((rebuilt.meets_new formed enumerates met).imp_right fun shared =>
      shared.of_passes left)

theorem Shown.grown {e : Key × Snapshot} (part : h.RebuiltPart h.Rebuilt p q t cs)
    (left : ∀ u ∈ p.values, h.PassesBy v u) (shown : h.Shown budget seen p mid e) :
    h.Grown v t seen mid := by
  cases shown with
  | item built =>
      cases part with
      | item here => exact here.grown (left _ List.mem_cons_self) built
  | field built =>
      cases part with
      | field here => exact here.grown (left _ List.mem_cons_self) built
  | entry _ built built' =>
      cases part with
      | entry _ _ key value =>
          exact (key.grown (left _ List.mem_cons_self) built).trans
            (value.grown (left _ (List.mem_cons_of_mem _ List.mem_cons_self)) built')

theorem Shown.grown_new {e : Key × Snapshot} (renewable : h.Renewable v w)
    (part : h.RebuiltPart h.Rebuilt p q t cs) (left : ∀ u ∈ p.values, h.PassesBy v u)
    (right : ∀ u ∈ q.values, h.PassesBy w u) (shown : h.Shown budget seen q mid e) :
    h.Grown v t seen mid := by
  cases shown with
  | item built =>
      cases part with
      | item here =>
          exact here.grown_new renewable (left _ List.mem_cons_self) (right _ List.mem_cons_self)
            built
  | field built =>
      cases part with
      | field here =>
          exact here.grown_new renewable (left _ List.mem_cons_self) (right _ List.mem_cons_self)
            built
  | entry _ built built' =>
      cases part with
      | entry _ _ key value =>
          have second {k u : Value} : u ∈ (Part.entry k u).values :=
            List.mem_cons_of_mem _ List.mem_cons_self
          exact (key.grown_new renewable (left _ List.mem_cons_self) (right _ List.mem_cons_self)
            built).trans (value.grown_new renewable (left _ second) (right _ second) built')

/-! ### Members -/

theorem findsEach_one {k : Key} {ls : List (List Value × String × String)}
    (finds : Finds h s s' ls) : FindsEach h [(k, s)] [(k, s')] (placedUnder k.value ls) :=
  List.append_nil (placedUnder k.value ls) ▸ .cons finds .nil

theorem made_nodes (entries : h.EntriesFormed v) (passes : h.PassesBy v x)
    (built : h.buildWithin budget seen label x = (last, .ok s)) (n : Snapshot)
    (node : n.NodeOf s) : n.Made := by
  obtain ⟨path, inside⟩ := node
  exact (PicturesWithin.node ⟨seen, label, last, built⟩ passes [] _ inside).made entries

theorem finds_entryNode {text : String} {c c' d d' : Snapshot}
    {ls : List (List Value × String × String)} (made : ∀ n, Snapshot.NodeOf n c → n.Made)
    (made' : ∀ n, Snapshot.NodeOf n d → n.Made) (keys : Finds h c c' [])
    (values : Finds h d d' ls) :
    Finds h (entryNode text c d) (entryNode text c' d') (placedUnder (.text "value") ls) := by
  have on : Snapshot.Opened (entryNode text c d) (entryNode text c' d') :=
    ⟨rfl, ⟨rfl, rfl⟩, ⟨rfl, rfl⟩, nofun⟩
  apply on.finds
  · intro n node
    rcases Snapshot.nodeOf_iff.mp node with rfl | ⟨e, inside, below⟩
    · exact ⟨rfl, nofun, nofun, fun _ _ => ⟨c, d, rfl⟩⟩
    · rcases (show e = (.text "key", c) ∨ e = (.text "value", d) by
        simpa [entryNode, Snapshot.children] using inside) with rfl | rfl
      · exact made n below
      · exact made' n below
  · exact entry_labelsTold
  · exact .cons keys (findsEach_one values)
  · exact fun _ => (nameable_text _).noteName rfl

/-- A member that is built again tells under its label what has been replaced in it. -/
theorem Shown.finds {e e' : Key × Snapshot} (finds : h.FindsWithin v w text budget)
    (renewable : h.Renewable v w) (part : h.RebuiltPart h.Rebuilt p q t cs)
    (left : ∀ u ∈ p.values, h.PassesBy v u) (right : ∀ u ∈ q.values, h.PassesBy w u)
    (novel : h.Novel v t seen seen') (written : h.Written text cs)
    (shown : h.Shown budget seen p mid e) (shown' : h.Shown budget seen' q mid' e') :
    FindsEach h [e] [e'] (told text cs) := by
  cases part with
  | item here =>
      cases shown with
      | item built =>
          cases shown' with
          | item built' =>
              rw [told_under, told_here]
              exact findsEach_one (finds (left _ List.mem_cons_self) (right _ List.mem_cons_self)
                here novel written built built')
  | field here =>
      cases shown with
      | field built known =>
          cases shown' with
          | field built' known' =>
              cases known.symm.trans known'
              rw [told_under, told_here, ← key_value known]
              exact findsEach_one (finds (left _ List.mem_cons_self) (right _ List.mem_cons_self)
                here novel written built built')
  | @entry k k' _ x y _ _ cs told₁ told₂ key value =>
      cases shown with
      | entry told₁' built₁ built₂ =>
          cases shown' with
          | entry told₂' built₁' built₂' =>
              cases told₁.symm.trans told₁'
              cases told₂.symm.trans told₂'
              have key_left : h.PassesBy v k := left k List.mem_cons_self
              have key_right : h.PassesBy w k' := right k' List.mem_cons_self
              have value_left : h.PassesBy v x := left x (by simp [Part.values])
              have value_right : h.PassesBy w y := right y (by simp [Part.values])
              have entries := renewable.entries
              have later := novel.right (key.grown key_left built₁)
                (key.grown_new renewable key_left key_right built₁')
              have keys := finds key_left key_right key novel.left .nil built₁ built₁'
              have values := finds value_left value_right value later
                (replacedUnder_cons _ _ ▸ written).below built₂ built₂'
              rw [told_under, told_under, told_here]
              exact findsEach_one (k := .plain (entryLabel _)) (finds_entryNode
                (made_nodes entries key_left built₁) (made_nodes entries value_left built₂) keys
                values)

/-- Members that are built again tell what has been replaced in them. -/
theorem Walked.finds (finds : h.FindsWithin v w text budget) (renewable : h.Renewable v w)
    (rebuilt : h.RebuiltParts h.Rebuilt ps qs t cs)
    (left : ∀ p ∈ ps, ∀ u ∈ p.values, h.PassesBy v u)
    (right : ∀ q ∈ qs, ∀ u ∈ q.values, h.PassesBy w u)
    (novel : h.Novel v t seen seen') (written : h.Written text cs)
    (walked : h.Walked budget last seen ps es) (walked' : h.Walked budget last' seen' qs es') :
    FindsEach h es es' (told text cs) := by
  induction rebuilt generalizing seen seen' es es' with
  | nil =>
      cases walked
      cases walked'
      exact .nil
  | cons part _ ih =>
      cases walked with
      | cons shown walked =>
          cases walked' with
          | cons shown' walked' =>
              obtain ⟨here, left⟩ := List.forall_mem_cons.mp left
              obtain ⟨there, right⟩ := List.forall_mem_cons.mp right
              have later := novel.right (shown.grown part here)
                (shown'.grown_new renewable part here there)
              have first := shown.finds finds renewable part here there novel.left
                written.split.1 shown'
              rw [told_append]
              exact first.append (ih left right later written.split.2 walked walked')

/-! ### Composites -/

theorem Walked.split (walked : h.Walked budget last seen (ps ++ qs) es) :
    ∃ mid es₁ es₂, es = es₁ ++ es₂ ∧ h.Walked budget mid seen ps es₁ ∧
      h.Walked budget last mid qs es₂ := by
  induction ps generalizing seen es with
  | nil => exact ⟨seen, [], es, rfl, .nil, walked⟩
  | cons p ps ih =>
      cases walked with
      | cons shown walked =>
          obtain ⟨mid, es₁, es₂, rfl, first, second⟩ := ih walked
          exact ⟨mid, _ :: es₁, es₂, rfl, .cons shown first, second⟩

/-- A composite that has not been entered before is shown with all its members. -/
theorem Drawing.expands {a : Address} (drawing : h.Drawing (budget + 1) seen label x last s)
    (address : (h.shape x).address? = some a) (new : a ∉ seen) : ∃ ps built children,
      s = .node { label, type := h.typeOf x, isLeaf := false, identity := some a } children ∧
        h.HasParts x ps ∧ h.Walked budget last (seen ++ [a]) ps built ∧
        h.labelled built = .ok children := by
  cases drawing with
  | leaf none => cases none.symm.trans address
  | again here old =>
      cases here.symm.trans address
      exact absurd old new
  | whole here _ members walked labelled =>
      cases here.symm.trans address
      exact ⟨_, _, _, rfl, members, walked, labelled⟩

/-- A walk that has entered a composite, and what belongs to its class, has entered nothing else. -/
theorem Walked.grown_shared {a b c : Address} (here : c = a ∨ c = b) (passes : h.PassesBy v x)
    (ofClass : h.ClassParts x ps) (walked : h.Walked budget mid (seen ++ [c]) ps es) :
    h.Grown v [(a, b)] seen mid := by
  intro d present
  rcases walked.entered (entersMet budget) d present with old | ⟨p, inside, u, holds, z, below, met⟩
  · rcases List.mem_append.mp old with before | new
    · exact .inl before
    · exact .inr (.inl (by simpa [composites, List.mem_singleton.mp new] using here))
  · exact .inr (.inr ⟨z, ⟨x, ps, p, u, passes, ofClass, inside, holds, below⟩, met⟩)

/-- What belongs to a class is found where the old value is walked through. -/
theorem ClassParts.all_fields {shared : List Part} (renewable : h.Renewable v w)
    (passes : h.PassesBy v x) (members : h.HasParts x ps) (among : shared ⊆ ps)
    (ofClass : h.ClassParts x shared) : ∀ p ∈ shared, ∃ n u, p = .field n u ∧
      (h.isLeaf u → h.leafEqual u u = .ok true) := by
  intro p inside
  cases ofClass with
  | none => cases inside
  | fields =>
      obtain ⟨e, _, rfl⟩ := List.mem_map.mp inside
      exact ⟨_, _, rfl, renewable.leaves _
        (passes.member members (among inside) (by simp [Part.values]))⟩

/-- The members of composites that are built again tell what has been replaced in them. -/
theorem Walked.finds_members {a b : Address} {shared : List Part}
    (plain : (h.classes "object").equality = .identity) (finds : h.FindsWithin v w text budget)
    (renewable : h.Renewable v w) (left : h.PassesBy v x) (right : h.PassesBy w y)
    (members : h.HasParts x (shared ++ ps)) (members' : h.HasParts y (shared ++ qs))
    (ofClass : h.ClassParts x shared) (parts : h.RebuiltParts h.Rebuilt ps qs t cs)
    (novel : h.Novel v ((a, b) :: t) seen seen') (written : h.Written text cs)
    (walked : h.Walked budget last (seen ++ [a]) (shared ++ ps) es)
    (walked' : h.Walked budget last' (seen' ++ [b]) (shared ++ qs) es') :
    FindsEach h es es' (told text cs) := by
  obtain ⟨mid, es₁, es₂, rfl, first, second⟩ := walked.split
  obtain ⟨mid', es₁', es₂', rfl, first', second'⟩ := walked'.split
  have same := ofClass.all_fields renewable left members (List.subset_append_left _ _)
  have grown := first.grown_shared (a := a) (b := b) (.inl rfl) left ofClass
  have grown' := first'.grown_shared (a := a) (b := b) (.inr rfl) left ofClass
  have fresh := Novel.right (t := [(a, b)]) novel grown grown'
  have own_left (p : Part) (inside : p ∈ ps) (u : Value) (holds : u ∈ p.values) : h.PassesBy v u :=
    left.member members (List.mem_append_right _ inside) holds
  have own_right (q : Part) (inside : q ∈ qs) (u : Value) (holds : u ∈ q.values) :
      h.PassesBy w u :=
    right.member members' (List.mem_append_right _ inside) holds
  exact (Walked.finds_shared plain same first first').append
    (second.finds finds renewable parts own_left own_right fresh written second')

/-- Composites that are built again tell what their members tell. -/
theorem Drawing.finds {a b : Address} (plain : (h.classes "object").equality = .identity)
    (finds : h.FindsWithin v w text budget) (renewable : h.Renewable v w) (left : h.PassesBy v x)
    (right : h.PassesBy w y) (address : (h.shape x).address? = some a)
    (address' : (h.shape y).address? = some b) (types : h.typeOf x = h.typeOf y)
    (own : h.OwnParts x ps) (own' : h.OwnParts y qs) (parts : h.RebuiltParts h.Rebuilt ps qs t cs)
    (novel : h.Novel v ((a, b) :: t) seen seen')
    (written : h.Written text (replacedUnder [label] cs))
    (made : ∀ n : Snapshot, n.NodeOf s → n.Made)
    (drawing : h.Drawing (budget + 1) seen label x last s)
    (drawing' : h.Drawing (budget + 1) seen' label y last' s') : Finds h s s' (told text cs) := by
  have once : a ≠ b := by
    have once := novel.once
    simp only [composites, List.flatMap_cons, List.cons_append, List.nodup_cons] at once
    exact fun same => once.1 (same ▸ List.mem_cons_self)
  have new : a ∉ seen := novel.new a (by simp [composites])
  have new' : b ∉ seen' := novel.new' b (by simp [composites])
  obtain ⟨_, _, _, rfl, members, walked, labelled⟩ := drawing.expands address new
  obtain ⟨_, _, _, rfl, members', walked', labelled'⟩ := drawing'.expands address' new'
  have differ := renewable.apart x _ left members
  have tells := renewable.enumerates x left
  obtain ⟨shared, ps', ofClass, told, rfl⟩ := hasParts_iff.mp members
  obtain ⟨shared', qs', ofClass', told', rfl⟩ := hasParts_iff.mp members'
  cases own.unique told
  cases own'.unique told'
  have forms := renewable.formed x y left right types
  cases ((ClassParts.rebuilt types forms own own' parts).mp ofClass).unique ofClass'
  have each := walked.finds_members plain finds renewable left right members members' ofClass parts
    novel written.below walked'
  -- All that has been built is kept on both sides, as the labels are the same.
  have labels := walked.labelsTold tells members differ
  have labels' := each.keys ▸ labels
  cases labelled_eq labelled (List.pairwise_map.mp labels.apart)
  cases labelled_eq labelled' (List.pairwise_map.mp labels'.apart)
  refine Snapshot.Opened.finds ⟨types, ⟨rfl, rfl⟩, ⟨rfl, rfl⟩, fun _ same =>
    once (Option.some.inj same)⟩ made labels each fun some => ?_
  exact (written.above ((told_nil_iff text).not.mp some) parts.paths).noteName rfl

/-- Within any budget snapshots of what is built again tell what has been replaced. -/
theorem findsWithin (plain : (h.classes "object").equality = .identity)
    (renewable : h.Renewable v w) (budget : Nat) : h.FindsWithin v w text budget := by
  induction budget with
  | zero =>
      intro x y t cs seen seen' label last last' s s' _ _ _ _ _ built
      cases built
  | succ budget ih =>
      intro x y t cs seen seen' label last last' s s' left right rebuilt novel written built built'
      have drawing := buildWithin_drawing built
      have drawing' := buildWithin_drawing built'
      cases rebuilt with
      | leaf leaf => exact (drawing.agrees plain (renewable.leaves x left) drawing').finds
      | replaced leaf leaf' differ =>
          exact finds_replaced plain leaf leaf' differ (renewable.formed x y left right)
            (written.below.texts _ List.mem_cons_self) drawing drawing'
      | composite address address' types own own' parts =>
          exact drawing.finds plain ih renewable left right address address' types own own' parts
            novel written (made_nodes renewable.entries left built) drawing'

/-! ## Snapshots -/

theorem Written.under (nameable : h.Nameable label) (written : h.Written text cs) :
    h.Written text (replacedUnder [label] cs) where
  texts := List.forall_mem_map.mpr written.texts
  names := List.forall_mem_map.mpr fun c inside n above => by
    cases path : c.1 with
    | nil => simp [path] at above
    | cons n' rest =>
        simp only [path, List.cons_append, List.nil_append, List.dropLast_cons_cons,
          List.mem_cons] at above
        rcases above with rfl | above
        · exact nameable
        · exact written.names c inside n (path ▸ above)

/-- The difference between a value and one that is built again from it tells the leaves that have
    been replaced, in the order of the labels that lead to them. -/
theorem snapshots_diff_rebuilt (plain : (h.classes "object").equality = .identity)
    (bare : h.hasFieldSource "object" = false) (renewable : h.Renewable v w)
    (rebuilt : h.Rebuilt v w t cs) (once : (composites t).Nodup)
    (own : ∀ c ∈ composites t, ¬ h.MeetsShared v c) (written : h.Written text cs) :
    ∃ s s', h.snapshot v = .ok s ∧ h.snapshot w = .ok s' ∧ Finds h s s' (told text cs) := by
  have enumerates := rebuilt.enumerates (contained_of_bare bare) renewable.formed
    renewable.enumerates
  obtain ⟨s, taken⟩ := snapshot_ok renewable.enumerates
  obtain ⟨s', taken'⟩ := snapshot_ok enumerates
  have novel : h.Novel v t [] [] :=
    ⟨once, own, fun c _ => List.not_mem_nil, fun c _ => List.not_mem_nil⟩
  have root : h.Nameable .null := nofun
  exact ⟨s, s', taken, taken', findsWithin plain renewable _ .self .self rebuilt novel
    (written.under root) (Prod.ext rfl taken) (Prod.ext rfl taken')⟩

/-- One leaf of a tree that is replaced gives one difference, with the labels that lead to it and
    the texts of the two leaves. -/
theorem snapshots_diff_oneLeaf {p : List Value} {text text' : String}
    (plain : (h.classes "object").equality = .identity)
    (bare : h.hasFieldSource "object" = false) (enumerates : h.Enumerates v)
    (keys : h.KeysWrittenApart v v) (names : h.FieldsApart v)
    (leaves : ∀ u, h.PassesBy v u → h.isLeaf u → h.leafEqual u u = .ok true)
    (entries : h.EntriesFormed v) (formed : h.FormedByClass v w)
    (rebuilt : h.Rebuilt v w t [(p, x, y)]) (once : (composites t).Nodup)
    (own : ∀ c ∈ composites t, ¬ h.MeetsShared v c)
    (told : h.summarize (h.freeze x) = .ok text) (told' : h.summarize (h.freeze y) = .ok text')
    (named : ∀ n ∈ p.dropLast, h.Nameable n) :
    ∃ s s' d, h.snapshot v = .ok s ∧ h.snapshot w = .ok s' ∧
      (s.diff h (some s')).2 = .ok (some d) ∧ d.leafDifferences = [(p, text, text')] := by
  let written (u : Value) : String := (h.summarize (h.freeze u)).toOption.getD ""
  have here : written x = text := by simp [written, told, Except.toOption]
  have there : written y = text' := by simp [written, told', Except.toOption]
  have renewable : h.Renewable v w :=
    ⟨enumerates, allApart_iff.mpr ⟨keys, names⟩, leaves, entries, formed⟩
  have tells : h.Written written [(p, x, y)] :=
    ⟨List.forall_mem_singleton.mpr ⟨here ▸ told, there ▸ told'⟩,
      List.forall_mem_singleton.mpr named⟩
  obtain ⟨s, s', taken, taken', r, result, listed, nothing⟩ :=
    snapshots_diff_rebuilt plain bare renewable rebuilt once own tells
  cases r with
  | none => cases nothing.mp rfl
  | some d =>
      have listed : d.leafDifferences = [(p, written x, written y)] := listed
      exact ⟨s, s', d, taken, taken', result, here ▸ there ▸ listed⟩

/-! ### Concrete values -/

theorem Tells.of_labels {ks : List Key} (contained : h.Contained) (members : h.HasParts x ps)
    (labelled : List.Forall₂ h.Labels ks ps)
    (total : ∀ k ∈ ks, ∀ k' ∈ ks, ∃ b, k.isFor h.equal k' = .ok b) : h.Tells x where
  live := contained x
  members := ⟨ps, members⟩
  labels qs members' p inside := by
    cases members.unique members'
    obtain ⟨key, _, labels⟩ := (forall₂_mem labelled).2 p inside
    exact ⟨key, labels⟩
  names qs members' n x n' x' inside inside' key key' known known' := by
    cases members.unique members'
    obtain ⟨k, listed, labels⟩ := (forall₂_mem labelled).2 _ inside
    obtain ⟨k', listed', labels'⟩ := (forall₂_mem labelled).2 _ inside'
    cases Labels.unique (p := .field n x) known labels
    cases Labels.unique (p := .field n' x') known' labels'
    exact total key listed key' listed'

variable (h) in
/-- Members are shown under texts. -/
abbrev ShownUnder (texts : List String) (ps : List Part) : Prop :=
  List.Forall₂ (fun text p => h.Labels (.text text) p) texts ps

theorem Tells.of_texts {texts : List String} (contained : h.Contained) (members : h.HasParts x ps)
    (labelled : h.ShownUnder texts ps) : h.Tells x := by
  apply of_labels contained members (List.forall₂_map_left_iff.mpr labelled)
  exact List.forall_mem_map.mpr fun s _ => List.forall_mem_map.mpr fun t _ => ⟨_, isFor_texts s t⟩

theorem LabelsDiffer.of_texts {texts : List String} (labelled : h.ShownUnder texts ps)
    (once : texts.Nodup) : h.LabelsDiffer ps := by
  induction labelled with
  | nil => exact .nil
  | @cons text p texts ps labels rest ih =>
      obtain ⟨new, once⟩ := List.nodup_cons.mp once
      apply List.Pairwise.cons _ (ih once)
      rintro q inside ⟨key, key', labels₁, labels₂, found⟩
      obtain ⟨text', listed, labels'⟩ := (forall₂_mem rest).2 q inside
      cases labels₁.unique labels'
      cases labels₂.unique labels
      rw [Key.text, Key.text, isFor_texts, Except.ok.injEq, beq_iff_eq] at found
      exact new (found ▸ listed)

/-- Two objects that share a list with all others of their class, and keep a list of their own with
    a number and a dictionary in it.  The dictionaries hold different leaves. -/
def tags : Heap where
  classes := Standard.classes Sample.classes
  objects :=
    let list (items : List Value) : Object := { cls := "list", body := .sequence .list items }
    let dict (entries : List (Key × Value)) : Object :=
      { cls := "dict", body := .mapping .dict entries }
    let tagged (a : Address) : Object := { cls := "Tagged", attrs := [("parts", .ref a)] }
    #[list [], list [.int 1], tagged 3, list [.int 7, .ref 4], dict [(.text "k", .int 1)],
      tagged 6, list [.int 7, .ref 7], dict [(.text "k", .bool true)]]

def tagsShared : List Part :=
  [.field (.text "tag") (.text "t"), .field (.text "kind") (.text "tagged"),
    .field (.text "limits") (.ref 1)]

theorem tags_object : tags.HasParts (.ref 2) (tagsShared ++ [.field (.text "parts") (.ref 3)]) ∧
    tags.HasParts (.ref 5) (tagsShared ++ [.field (.text "parts") (.ref 6)]) :=
  ⟨rfl, rfl⟩

theorem tags_list : tags.HasParts (.ref 3) [.item 0 (.int 7), .item 1 (.ref 4)] ∧
    tags.HasParts (.ref 6) [.item 0 (.int 7), .item 1 (.ref 7)] ∧
    tags.HasParts (.ref 1) [.item 0 (.int 1)] :=
  ⟨rfl, rfl, rfl⟩

theorem tags_dict : tags.HasParts (.ref 4) [.entry (.text "k") (.int 1)] ∧
    tags.HasParts (.ref 7) [.entry (.text "k") (.bool true)] :=
  ⟨rfl, rfl⟩

theorem tags_written : tags.repr (.text "k") = .ok "'k'" := by decide +kernel

/-- What is in the two objects. -/
def tagsValues : List Value :=
  [.ref 2, .ref 5, .ref 3, .ref 6, .ref 1, .ref 4, .ref 7, .int 1, .int 7, .bool true, .text "t",
    .text "tagged", .text "k"]

theorem tags_parts : ∀ u ∈ tagsValues, ∃ ps texts, tags.HasParts u ps ∧
    (∀ v ∈ ps.flatMap Part.values, v ∈ tagsValues) ∧ tags.ShownUnder texts ps ∧ texts.Nodup := by
  have leaf {u : Value} (leaf : tags.parts (tags.shape u) = .ok []) : ∃ ps texts,
      tags.HasParts u ps ∧ (∀ v ∈ ps.flatMap Part.values, v ∈ tagsValues) ∧
        tags.ShownUnder texts ps ∧ texts.Nodup :=
    ⟨[], [], leaf, by simp, .nil, .nil⟩
  have field (n : String) (x : Value) : tags.Labels (.text n) (.field (.text n) x) := key_text n
  have object (x : Value) : tags.ShownUnder ["tag", "kind", "limits", "parts"]
      (tagsShared ++ [.field (.text "parts") x]) :=
    .cons (field _ _) (.cons (field _ _) (.cons (field _ _) (.cons (field _ _) .nil)))
  have list (x y : Value) : tags.ShownUnder ["[0]", "[1]"] [.item 0 x, .item 1 y] :=
    .cons rfl (.cons rfl .nil)
  have entry (x : Value) : tags.ShownUnder ["entry 'k'"] [.entry (.text "k") x] :=
    .cons ⟨_, tags_written, rfl⟩ .nil
  simp only [tagsValues, List.forall_mem_cons, List.not_mem_nil, false_implies, implies_true,
    and_true]
  exact ⟨⟨_, _, tags_object.1, by decide, object _, by decide⟩,
    ⟨_, _, tags_object.2, by decide, object _, by decide⟩,
    ⟨_, _, tags_list.1, by decide, list _ _, by decide⟩,
    ⟨_, _, tags_list.2.1, by decide, list _ _, by decide⟩,
    ⟨_, ["[0]"], tags_list.2.2, by decide, .cons rfl .nil, by decide⟩,
    ⟨_, _, tags_dict.1, by decide, entry _, by decide⟩,
    ⟨_, _, tags_dict.2, by decide, entry _, by decide⟩,
    leaf rfl, leaf rfl, leaf rfl, leaf rfl, leaf rfl, leaf rfl⟩

theorem tags_among {u : Value} (passed : tags.PassesBy (.ref 2) u ∨ tags.PassesBy (.ref 5) u) :
    u ∈ tagsValues := by
  have closed : ∀ u ∈ tagsValues, ∃ ps, tags.HasParts u ps ∧
      ∀ p ∈ ps, ∀ v ∈ p.values, v ∈ tagsValues := by
    intro u inside
    obtain ⟨ps, _, members, among, _⟩ := tags_parts u inside
    exact ⟨ps, members, fun p inside v holds => among v (List.mem_flatMap.mpr ⟨p, inside, holds⟩)⟩
  rcases passed with left | right
  · exact left.among (by simp [tagsValues]) closed
  · exact right.among (by simp [tagsValues]) closed

theorem tags_rebuilt : tags.Rebuilt (.ref 2) (.ref 5) [(2, 5), (3, 6), (4, 7)]
    [([.text "parts", itemLabel 1, entryLabel "'k'", .text "value"], .int 1, .bool true)] := by
  have key : tags.Rebuilt (.text "k") (.text "k") [] [] := .leaf rfl
  have number : tags.Rebuilt (.int 7) (.int 7) [] [] := .leaf rfl
  have value : tags.Rebuilt (.int 1) (.bool true) [] [([], .int 1, .bool true)] :=
    .replaced rfl rfl (.inl (by decide))
  have dict : tags.Rebuilt (.ref 4) (.ref 7) [(4, 7)]
      [([entryLabel "'k'", .text "value"], .int 1, .bool true)] :=
    .composite rfl rfl rfl (.members nofun tags_dict.1) (.members nofun tags_dict.2)
      (.cons (.entry tags_written tags_written key value) .nil)
  have list : tags.Rebuilt (.ref 3) (.ref 6) [(3, 6), (4, 7)]
      [([itemLabel 1, entryLabel "'k'", .text "value"], .int 1, .bool true)] :=
    .composite rfl rfl rfl (.members nofun tags_list.1) (.members nofun tags_list.2.1)
      (.cons (.item number) (.cons (.item dict) .nil))
  have own : tags.OwnParts (.ref 2) [.field (.text "parts") (.ref 3)] :=
    @OwnParts.fields tags (.ref 2) 2 [(.text "parts", .ref 3)] rfl rfl
  have own' : tags.OwnParts (.ref 5) [.field (.text "parts") (.ref 6)] :=
    @OwnParts.fields tags (.ref 5) 5 [(.text "parts", .ref 6)] rfl rfl
  exact .composite rfl rfl rfl own own' (.cons (.field list) .nil)

/-- What belongs to the class is one list, with what is in it. -/
theorem tags_met {c : Address} (met : tags.MeetsShared (.ref 2) c) : c = 1 := by
  obtain ⟨u, ⟨z, ps, p, x, passes, ofClass, inside, holds, below⟩, address⟩ := met
  have shared : ps ⊆ tagsShared := by
    cases ofClass with
    | none => exact List.nil_subset _
    | fields shape told =>
        have structured : ∀ v ∈ tagsValues, tags.kind v = .structured →
            v = .ref 2 ∨ v = .ref 5 := by decide +kernel
        have kind : tags.kind z = .structured := shape_structured_iff.mp ⟨_, shape⟩
        rcases structured z (tags_among (.inl passes)) kind with rfl | rfl
        all_goals
          cases shape
          cases told
          exact List.Subset.refl _
  let values : List Value := [.text "t", .text "tagged", .ref 1, .int 1]
  have start : ∀ v ∈ tagsShared.flatMap Part.values, v ∈ values := by decide
  have closed : ∀ u ∈ values, ∃ ps, tags.HasParts u ps ∧ ∀ p ∈ ps, ∀ v ∈ p.values, v ∈ values := by
    simp only [values, List.forall_mem_cons, List.not_mem_nil, false_implies, implies_true,
      and_true]
    exact ⟨⟨[], rfl, by simp⟩, ⟨[], rfl, by simp⟩, ⟨_, tags_list.2.2, by simp [Part.values]⟩,
      ⟨[], rfl, by simp⟩⟩
  have places : ∀ v ∈ values, (tags.shape v).address? = none ∨
      (tags.shape v).address? = some 1 := by decide +kernel
  have inside := below.among (start x (List.mem_flatMap.mpr ⟨p, shared inside, holds⟩)) closed
  rcases places u inside with place | place
  · cases place.symm.trans address
  · exact (Option.some.inj (place.symm.trans address)).symm

/-- Objects that differ in one leaf below a field, an item and an entry. -/
theorem snapshots_diff_oneLeaf_tags : (tags.classes "object").equality = .identity ∧
    tags.hasFieldSource "object" = false ∧ tags.Enumerates (.ref 2) ∧
    tags.Rebuilt (.ref 2) (.ref 5) [(2, 5), (3, 6), (4, 7)]
      [([.text "parts", itemLabel 1, entryLabel "'k'", .text "value"], .int 1, .bool true)] ∧
    ∃ s s' d, tags.snapshot (.ref 2) = .ok s ∧ tags.snapshot (.ref 5) = .ok s' ∧
      (s.diff tags (some s')).2 = .ok (some d) ∧ d.leafDifferences =
        [([.text "parts", itemLabel 1, entryLabel "'k'", .text "value"], "1", "True")] := by
  have among {u : Value} (passes : tags.PassesBy (.ref 2) u) : u ∈ tagsValues :=
    tags_among (.inl passes)
  have enumerates : tags.Enumerates (.ref 2) := by
    intro u passes
    obtain ⟨_, _, members, _, labelled, _⟩ := tags_parts u (among passes)
    exact .of_texts (contained_of_bare rfl) members labelled
  have apart : tags.AllApart (.ref 2) := by
    intro u ps passes members
    obtain ⟨_, _, members', _, labelled, once⟩ := tags_parts u (among passes)
    exact members.unique members' ▸ .of_texts labelled once
  obtain ⟨keys, names⟩ := allApart_iff.mp apart
  have leaves : ∀ u ∈ tagsValues, tags.isLeaf u → tags.leafEqual u u = .ok true := by
    decide +kernel
  have types : ∀ u ∈ tagsValues, tags.typeOf u ≠ entryClass := by decide +kernel
  have forms : ∀ x ∈ tagsValues, ∀ y ∈ tagsValues, tags.typeOf x = tags.typeOf y →
      tags.form x = tags.form y := by decide +kernel
  have plain : tags.Entryless (.ref 2) := fun u passes => types u (among passes)
  have formed : tags.FormedByClass (.ref 2) (.ref 5) := fun x y left right =>
    forms x (among left) y (tags_among (.inr right))
  have own : ∀ c ∈ composites [(2, 5), (3, 6), (4, 7)], ¬ tags.MeetsShared (.ref 2) c := by
    intro c inside met
    cases tags_met met
    revert inside
    decide
  have named : ∀ n ∈ [Value.text "parts", itemLabel 1, entryLabel "'k'", .text "value"].dropLast,
      tags.Nameable n := by
    simp [itemLabel, entryLabel, nameable_text]
  exact ⟨rfl, rfl, enumerates, tags_rebuilt, snapshots_diff_oneLeaf rfl rfl enumerates keys names
    (fun u passes => leaves u (among passes)) plain.formed formed tags_rebuilt (by decide) own
    (by decide +kernel) (by decide +kernel) named⟩

/-- Two objects that list the same two points as the names of their fields.  The second point has
    been made the same as the first since it was entered. -/
def renamed : Heap where
  classes := Standard.classes Sample.classes
  objects :=
    let point : Object := { cls := "FrozenPoint", attrs := [("x", .int 1), ("y", .int 2)] }
    let key (a : Address) (x : Int) : Key := ⟨.ref a, .ofTuple [.ofInt x, .ofInt 2]⟩
    let pairs (n : Int) : Object :=
      { cls := "dict", body := .mapping .dict [(key 0 1, .int n), (key 1 3, .int 2)] }
    #[point, point, pairs 1, pairs 5, { cls := "Pairs", attrs := [("pairs", .ref 2)] },
      { cls := "Pairs", attrs := [("pairs", .ref 3)] }]

theorem renamed_parts : renamed.HasParts (.ref 4)
    [.field (.ref 0) (.int 1), .field (.ref 1) (.int 2)] := rfl

theorem renamed_among {u : Value} (passes : renamed.PassesBy (.ref 4) u) :
    u ∈ [.ref 4, .int 1, .int 2] := by
  apply passes.among (by simp)
  simp only [List.forall_mem_cons, List.not_mem_nil, false_implies, implies_true, and_true]
  exact ⟨⟨_, renamed_parts, by simp [Part.values]⟩, ⟨[], rfl, by simp⟩, ⟨[], rfl, by simp⟩⟩

theorem renamed_enumerates : renamed.Enumerates (.ref 4) := by
  let key (a : Address) : Key := ⟨.ref a, .ofTuple [.ofInt 1, .ofInt 2]⟩
  have names : ∀ k ∈ [key 0, key 1], ∀ k' ∈ [key 0, key 1],
      k.isFor renamed.equal k' == .ok true := by decide +kernel
  have object : renamed.Tells (.ref 4) :=
    .of_labels (contained_of_bare rfl) renamed_parts (.cons rfl (.cons rfl .nil))
      fun k inside k' inside' => ⟨true, eq_of_beq (names k inside k' inside')⟩
  have leaf {u : Value} (leaf : renamed.shape u = .leaf) : renamed.Tells u :=
    enumerates_leaf leaf u .self
  intro u passes
  have all : ∀ u ∈ [.ref 4, .int 1, .int 2], renamed.Tells u := by
    simp only [List.forall_mem_cons, List.not_mem_nil, false_implies, implies_true, and_true]
    exact ⟨object, leaf rfl, leaf rfl⟩
  exact all u (renamed_among passes)

theorem renamed_own {c : Address} : ¬ renamed.MeetsShared (.ref 4) c := by
  rintro ⟨u, ⟨z, ps, p, x, passes, ofClass, inside, _⟩, _⟩
  cases ofClass with
  | none => cases inside
  | fields shape told =>
      have structured : ∀ v ∈ [Value.ref 4, .int 1, .int 2],
          renamed.kind v = .structured → v = .ref 4 := by decide +kernel
      cases structured z (renamed_among passes) (shape_structured_iff.mp ⟨_, shape⟩)
      cases shape
      cases told
      cases inside

theorem renamed_rebuilt : renamed.Rebuilt (.ref 4) (.ref 5) [(4, 5)]
    [([.ref 0], .int 1, .int 5)] := by
  have first : renamed.Rebuilt (.int 1) (.int 5) [] [([], .int 1, .int 5)] :=
    .replaced rfl rfl (.inr (by decide +kernel))
  have second : renamed.Rebuilt (.int 2) (.int 2) [] [] := .leaf rfl
  let fields (n : Int) : List (Key × Value) :=
    [(⟨.ref 0, .ofTuple [.ofInt 1, .ofInt 2]⟩, .int n),
      (⟨.ref 1, .ofTuple [.ofInt 3, .ofInt 2]⟩, .int 2)]
  have own := @OwnParts.fields renamed (.ref 4) 4 (fields 1) rfl rfl
  have own' := @OwnParts.fields renamed (.ref 5) 5 (fields 5) rfl rfl
  exact .composite rfl rfl rfl own own' (.cons (.field first) (.cons (.field second) .nil))

/-- Of two fields with one name the leaf of the first is not compared. -/
theorem diff_misses_replaced : ¬ ∀ (h : Heap) (v w x y : Value) (t : List Meeting) (p : List Value)
    (text text' : String), (h.classes "object").equality = .identity →
    h.hasFieldSource "object" = false → h.Enumerates v → h.KeysWrittenApart v v →
    (∀ u, h.PassesBy v u → h.isLeaf u → h.leafEqual u u = .ok true) → h.EntriesFormed v →
    h.FormedByClass v w → h.Rebuilt v w t [(p, x, y)] → (composites t).Nodup →
    (∀ c ∈ composites t, ¬ h.MeetsShared v c) → h.summarize (h.freeze x) = .ok text →
    h.summarize (h.freeze y) = .ok text' → (∀ n ∈ p.dropLast, h.Nameable n) →
    ∃ s s' d, h.snapshot v = .ok s ∧ h.snapshot w = .ok s' ∧
      (s.diff h (some s')).2 = .ok (some d) ∧ d.leafDifferences = [(p, text, text')] := by
  intro claim
  have among {u : Value} (passes : renamed.PassesBy (.ref 4) u) := renamed_among passes
  have among' {u : Value} (passes : renamed.PassesBy (.ref 5) u) :
      u ∈ [.ref 5, .int 5, .int 2] := by
    apply passes.among (by simp)
    simp only [List.forall_mem_cons, List.not_mem_nil, false_implies, implies_true, and_true]
    exact ⟨⟨[.field (.ref 0) (.int 5), .field (.ref 1) (.int 2)], rfl, by simp [Part.values]⟩,
      ⟨[], rfl, by simp⟩, ⟨[], rfl, by simp⟩⟩
  have keys : renamed.KeysWrittenApart (.ref 4) (.ref 4) := by
    have kinds : ∀ u ∈ [Value.ref 4, .int 1, .int 2], renamed.kind u ≠ .mapping := by
      decide +kernel
    intro u ps passed members i j k v k' v' text at_i
    exact absurd (members.kind_eq _ (List.mem_of_getElem? at_i)).symm
      (kinds u (among (or_self_iff.mp passed)))
  have leaves : ∀ u ∈ [Value.ref 4, .int 1, .int 2], renamed.isLeaf u →
      renamed.leafEqual u u = .ok true := by decide +kernel
  have types : ∀ u ∈ [Value.ref 4, .int 1, .int 2], renamed.typeOf u ≠ entryClass := by
    decide +kernel
  have forms : ∀ x ∈ [Value.ref 4, .int 1, .int 2], ∀ y ∈ [Value.ref 5, .int 5, .int 2],
      renamed.typeOf x = renamed.typeOf y → renamed.form x = renamed.form y := by decide +kernel
  have plain : renamed.Entryless (.ref 4) := fun u passes => types u (among passes)
  obtain ⟨s, s', d, taken, taken', differs, _⟩ := claim renamed (.ref 4) (.ref 5) (.int 1) (.int 5)
    [(4, 5)] [.ref 0] "1" "5" rfl rfl renamed_enumerates keys
    (fun u passes => leaves u (among passes)) plain.formed
    (fun x y left right => forms x (among left) y (among' right)) renamed_rebuilt (by decide)
    (fun c _ => renamed_own) (by decide +kernel) (by decide +kernel) (by simp)
  cases taken
  cases taken'
  cases differs

end Heap

end Assay
