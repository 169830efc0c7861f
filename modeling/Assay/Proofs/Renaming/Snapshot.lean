import Assay.Proofs.Renaming.Fields
import Assay.Proofs.Renaming.Text
import Assay.Proofs.Heap.Trip
import Assay.Snapshot.Build

/-! # Snapshots on twin heaps

The snapshots of one value on twin heaps are the same tree, with other identities.
-/

namespace Assay

variable {R : Renaming}

/-- The same content at other addresses. -/
inductive Captured.Renamed (R : Renaming) : Captured → Captured → Prop where
  | value {v v'} : v.Renamed R v' → Renamed R (.value v) (.value v')
  | members {items items'} : R.Keys items items' → Renamed R (.members items) (.members items')
  | difference {expected actual} : Renamed R (.difference expected actual) (.difference expected actual)

/-- The same node with another identity. -/
structure Head.Renamed (R : Renaming) (n n' : Head) : Prop where
  label : n.label.Renamed R n'.label
  type : n'.type = n.type
  isLeaf : n'.isLeaf = n.isLeaf
  identity : Option.Rel R n.identity n'.identity
  alreadyReferenced : n'.alreadyReferenced = n.alreadyReferenced
  content : n.content.Renamed R n'.content

mutual
/-- The same tree with other identities. -/
inductive Snapshot.Renamed (R : Renaming) : Snapshot → Snapshot → Prop where
  | node {head head' children children'} : head.Renamed R head' →
      Snapshot.AllRenamed R children children' →
      Snapshot.Renamed R (.node head children) (.node head' children')
/-- The same children with other identities. -/
inductive Snapshot.AllRenamed (R : Renaming) :
    List (Key × Snapshot) → List (Key × Snapshot) → Prop where
  | nil : Snapshot.AllRenamed R [] []
  | cons {k k' s s' rest rest'} : k.Renamed R k' → Snapshot.Renamed R s s' →
      Snapshot.AllRenamed R rest rest' → Snapshot.AllRenamed R ((k, s) :: rest) ((k', s') :: rest')
end

/-- The same children under the same labels. -/
abbrev Renaming.Children (R : Renaming) : List (Key × Snapshot) → List (Key × Snapshot) → Prop :=
  List.Forall₂ (Both (Key.Renamed R) (Snapshot.Renamed R))

theorem Snapshot.AllRenamed.of_children {cs cs' : List (Key × Snapshot)}
    (children : R.Children cs cs') : AllRenamed R cs cs' := by
  induction children with
  | nil => exact .nil
  | cons child _ ih => exact .cons child.1 child.2 ih

namespace Captured.Renamed

theorem mono {S : Renaming} (more : ∀ a a', R a a' → S a a') {x x' : Captured}
    (renamed : x.Renamed R x') : x.Renamed S x' := by
  cases renamed with
  | value renamed => exact .value (renamed.mono more)
  | members items => exact .members (items.imp fun _ _ key => key.mono more)
  | difference => exact .difference

end Captured.Renamed

theorem Head.Renamed.mono {S : Renaming} (more : ∀ a a', R a a' → S a a') {n n' : Head}
    (renamed : n.Renamed R n') : n.Renamed S n' where
  label := renamed.label.mono more
  type := renamed.type
  isLeaf := renamed.isLeaf
  identity := by
    have same := renamed.identity
    generalize n.identity = a, n'.identity = a' at same ⊢
    cases same with
    | none => exact .none
    | some here => exact .some (more _ _ here)
  alreadyReferenced := renamed.alreadyReferenced
  content := renamed.content.mono more

mutual
theorem Snapshot.Renamed.mono {S : Renaming} (more : ∀ a a', R a a' → S a a') {s s' : Snapshot} :
    s.Renamed R s' → s.Renamed S s'
  | .node head children => .node (head.mono more) (Snapshot.AllRenamed.mono more children)
theorem Snapshot.AllRenamed.mono {S : Renaming} (more : ∀ a a', R a a' → S a a')
    {cs cs' : List (Key × Snapshot)} : Snapshot.AllRenamed R cs cs' → Snapshot.AllRenamed S cs cs'
  | .nil => .nil
  | .cons key child rest =>
    .cons (key.mono more) (Snapshot.Renamed.mono more child) (Snapshot.AllRenamed.mono more rest)
end

/-- The same member at other addresses. -/
inductive Part.Renamed (R : Renaming) : Part → Part → Prop where
  | item {i v v'} : v.Renamed R v' → Renamed R (.item i v) (.item i v')
  | entry {k k' v v'} : k.Renamed R k' → v.Renamed R v' → Renamed R (.entry k v) (.entry k' v')
  | field {n n' v v'} : n.Renamed R n' → v.Renamed R v' → Renamed R (.field n v) (.field n' v')

namespace Heap.Twin

variable {h h' : Heap} (twin : h.Twin R h')

include twin

theorem freeze {v v' : Value} (renamed : v.Renamed R v') :
    (h.freeze v).Renamed R (h'.freeze v') := by
  have kept : (Captured.value v).Renamed R (.value v') := .value renamed
  cases renamed with
  | nan => exact kept
  | datum data => cases v <;> first | exact kept | cases data
  | @ref a a' here =>
      have body := (twin.objects here).body
      simp only [Heap.freeze]
      generalize (h.object a).body = x, (h'.object a').body = x' at body ⊢
      cases body with
      | octets => exact .value (.datum rfl)
      | members items => exact .members items
      | _ => exact kept

theorem parts {s s' : Shape} (shape : s.Renamed R s') :
    Results R False (Walks R False (Part.Renamed R)) (h.parts s) (h'.parts s') := by
  cases shape with
  | leaf => exact .ok .nil
  | @sequence _ _ items items' here values =>
      refine .ok (.of_ok ?_)
      have numbered (n : Nat) : List.Forall₂ (Part.Renamed R) (itemsFrom n items)
          (itemsFrom n items') := by
        induction values generalizing n with
        | nil => exact .nil
        | cons value _ ih => exact .cons (.item value) (ih (n + 1))
      exact numbered 0
  | mapping here entries =>
      exact .ok ((twin.walkEntriesWith twin.equal _ entries).map fun _ _ entry =>
        .entry entry.1 entry.2)
  | @structured a a' here =>
      simp only [Heap.parts]
      have shared := twin.sharedFields here
      generalize h.sharedFields a = r, h'.sharedFields a' = r' at shared ⊢
      cases shared using Results.both with
      | error same => exact .error same
      | ok shared =>
          refine (twin.fields here).map fun _ _ own => ?_
          refine Walks.of_each (List.rel_append shared own) ?_
          exact fun _ _ entry => .ok (.field entry.1.value entry.2)

theorem labelled {cs cs' : List (Key × Snapshot)} (children : R.Children cs cs') :
    Results R False R.Children (h.labelled cs) (h'.labelled cs') := by
  refine Results.foldlM children .nil ?_
  rintro es es' ⟨label, s⟩ ⟨label', s'⟩ entered ⟨key, child⟩
  exact Entries.enter_related key child
    (fun _ _ other => key.isFor twin.ordered twin.equal other) entered

end Heap.Twin

/-! ## Taking a snapshot -/

namespace Heap

/-- A walk has come from some composites that count as entered to the same composites, and the same
result, on both heaps. -/
structure Carried (h : Heap) (R : Renaming) {α α' : Type} (S : α → α' → Prop) (seen : List Address)
    (o : List Address × Except Fault α) (o' : List Address × Except Fault α') : Prop where
  same : List.Forall₂ R o.1 o'.1
  entered : h.Entered o.1
  more : seen.length ≤ o.1.length
  result : Results R False S o.2 o'.2

/-- Both ways to take snapshots give the same ones on two heaps, where at least so many composites
count as entered. -/
def BuildsAlike (h : Heap) (R : Renaming) (count : Nat)
    (build build' : List Address → Value → Value → List Address × Except Fault Snapshot) : Prop :=
  ∀ seen seen' label label' v v', List.Forall₂ R seen seen' → h.Entered seen →
    count ≤ seen.length → label.Renamed R label' → v.Renamed R v' →
    h.Carried R (Snapshot.Renamed R) seen (build seen label v) (build' seen' label' v')

theorem Carried.result_map {h : Heap} {α α' β β' : Type} {S : α → α' → Prop} {T : β → β' → Prop}
    {seen : List Address} {o : List Address × Except Fault α} {o' : List Address × Except Fault α'}
    (carried : h.Carried R S seen o o') {f : Except Fault α → Except Fault β}
    {f' : Except Fault α' → Except Fault β'}
    (next : Results R False S o.2 o'.2 → Results R False T (f o.2) (f' o'.2)) :
    h.Carried R T seen (o.1, f o.2) (o'.1, f' o'.2) :=
  ⟨carried.same, carried.entered, carried.more, next carried.result⟩

end Heap

namespace Heap.Twin

variable {h h' : Heap} (twin : h.Twin R h')
  {build build' : List Address → Value → Value → List Address × Except Fault Snapshot} {count : Nat}
  (alike : h.BuildsAlike R count build build')

include twin alike

theorem buildPart {seen seen' : List Address} (related : List.Forall₂ R seen seen')
    (entered : h.Entered seen) (enough : count ≤ seen.length) {p p' : Part}
    (part : p.Renamed R p') : h.Carried R (Both (Key.Renamed R) (Snapshot.Renamed R)) seen
      (h.buildPart build seen p) (h'.buildPart build' seen' p') := by
  cases part with
  | @item i v v' value =>
      have built := alike seen seen' (itemLabel i) (itemLabel i) v v' related entered enough
        (.datum rfl) value
      exact built.result_map fun result => result.map fun _ _ child =>
        ⟨Key.renamed_plain rfl, child⟩
  | @field n n' v v' name value =>
      have built := alike seen seen' n n' v v' related entered enough name value
      have key := twin.key name
      simp only [Heap.buildPart]
      generalize build seen n v = o, build' seen' n' v' = o' at built ⊢
      obtain ⟨last, r⟩ := o
      obtain ⟨last', r'⟩ := o'
      obtain ⟨seen, entered, more, result⟩ := built
      cases result using Results.both with
      | error same => exact ⟨seen, entered, more, .error same⟩
      | ok child => exact ⟨seen, entered, more, key.map fun _ _ key => ⟨key, child⟩⟩
  | @entry k k' v v' key value =>
      have written := twin.repr key
      have built := alike seen seen' (.text "key") (.text "key") k k' related entered enough
        (.datum rfl) key
      simp only [Heap.buildPart]
      generalize h.repr k = t, h'.repr k' = t' at written ⊢
      generalize build seen (.text "key") k = o, build' seen' (.text "key") k' = o' at built ⊢
      cases written using Results.both with
      | error same => exact ⟨related, entered, Nat.le_refl _, .error same⟩
      | @ok text _ same =>
          cases same
          obtain ⟨last, r⟩ := o
          obtain ⟨last', r'⟩ := o'
          obtain ⟨related, entered, more, result⟩ := built
          cases result using Results.both with
          | error same => exact ⟨related, entered, more, .error same⟩
          | ok keyNode =>
              have built := alike last last' (.text "value") (.text "value") v v' related entered
                (Nat.le_trans enough more) (.datum rfl) value
              refine ⟨built.same, built.entered, Nat.le_trans more built.more, ?_⟩
              refine built.result.map fun _ _ valueNode => ⟨Key.renamed_plain rfl, ?_⟩
              exact .node ⟨.datum rfl, rfl, rfl, .none, rfl, .value (.datum rfl)⟩
                (.cons (Key.renamed_text _) keyNode (.cons (Key.renamed_text _) valueNode .nil))

theorem walkEach {walk walk' : Walk Part} (walks : Walks R False (Part.Renamed R) walk walk')
    {seen seen' : List Address} (related : List.Forall₂ R seen seen') (entered : h.Entered seen)
    (enough : count ≤ seen.length) : h.Carried R R.Children seen
      (walkEach (h.buildPart build) seen walk) (walkEach (h'.buildPart build') seen' walk') := by
  induction walks generalizing seen seen' with
  | nil => exact ⟨related, entered, Nat.le_refl _, .ok .nil⟩
  | cut lacks => exact lacks.elim
  | error same => exact ⟨related, entered, Nat.le_refl _, .error same⟩
  | @ok p p' _ _ part _ ih =>
      have built := twin.buildPart alike related entered enough part
      simp only [Assay.walkEach]
      generalize h.buildPart build seen p = o, h'.buildPart build' seen' p' = o' at built ⊢
      obtain ⟨last, r⟩ := o
      obtain ⟨last', r'⟩ := o'
      obtain ⟨related, entered, more, result⟩ := built
      cases result using Results.both with
      | error same => exact ⟨related, entered, more, .error same⟩
      | ok child =>
          have rest := ih related entered (Nat.le_trans enough more)
          exact ⟨rest.same, rest.entered, Nat.le_trans more rest.more,
            rest.result.map fun _ _ rest => .cons child rest⟩

omit alike

/-- No composite is entered twice, so that the budgets are enough on both heaps. -/
theorem buildWithin {n m : Nat} (le : n ≤ m) {count : Nat} (enough : h.objects.size + 1 ≤ n + count) :
    h.BuildsAlike R count (h.buildWithin n) (h'.buildWithin m) := by
  induction n generalizing m count with
  | zero =>
      -- More would have been entered than there is.
      intro seen seen' label label' v v' related entered least
      have room := entered.length
      omega
  | succ n ih =>
      obtain ⟨m, rfl⟩ : ∃ k, m = k + 1 := ⟨m - 1, by omega⟩
      intro seen seen' label label' v v' related entered least name renamed
      have shape := twin.shape renamed
      have address := shape.address?
      have kept := twin.freeze renamed
      have told := twin.parts shape
      have inside := contained_of_bare twin.root.fields v
      simp only [Heap.buildWithin, twin.typeOf renamed]
      generalize h.shape v = s, h'.shape v' = s' at shape address told inside ⊢
      generalize s.address? = x, s'.address? = x' at address inside ⊢
      cases address with
      | none =>
          exact ⟨related, entered, Nat.le_refl _,
            .ok (.node ⟨name, rfl, rfl, .none, rfl, kept⟩ .nil)⟩
      | @some a a' here =>
          have live := inside a rfl
          dsimp only
          rw [contains_related twin.ordered related here]
          split
          · exact ⟨related, entered, Nat.le_refl _,
              .ok (.node ⟨name, rfl, rfl, .some here, rfl, .value (.datum rfl)⟩ .nil)⟩
          · rename_i new
            have entered := entered.enter (by simpa using new) live
            have related : List.Forall₂ R (seen ++ [a]) (seen' ++ [a']) :=
              List.rel_append related (.cons here .nil)
            have longer : (seen ++ [a]).length = seen.length + 1 := by simp
            generalize h.parts s = r, h'.parts s' = r' at told ⊢
            cases told using Results.both with
            | error same => exact ⟨related, entered, by simp, .error same⟩
            | ok walks =>
                -- What is entered makes up for the budget that is spent.
                have room : h.objects.size + 1 ≤ n + (seen.length + 1) := by omega
                have built := twin.walkEach (ih (Nat.le_of_succ_le_succ le) room) walks related
                  entered longer.ge
                refine ⟨built.same, built.entered, ?_, ?_⟩
                · have more := built.more
                  simp only at more ⊢
                  omega
                · refine (built.result.bind fun _ _ children => twin.labelled children).map ?_
                  exact fun _ _ children =>
                    .node ⟨name, rfl, rfl, .some here, rfl, .value (.datum rfl)⟩ (.of_children children)

/-- The snapshots of a value on twin heaps are the same. -/
theorem buildSnapshot {label label' v v' : Value} (name : label.Renamed R label')
    (renamed : v.Renamed R v') : Results R False (Snapshot.Renamed R)
      (h.buildSnapshot [] label v).2 (h'.buildSnapshot [] label' v').2 :=
  (twin.buildWithin (Nat.succ_le_succ twin.size) (Nat.le_refl _) [] [] label label' v v' .nil .none
    (Nat.le_refl 0) name renamed).result

end Heap.Twin

end Assay
