import Assay.Facet.Run
import Assay.Proofs.Clause.Lockstep
import Assay.Proofs.Facet.Fair
import Assay.Proofs.Renaming.Clause
import Assay.Proofs.Renaming.Likeness

/-! # Bodies in company

A body runs alone, or in company: in a world in which other bodies have been at work before. It
has some things of its own, and some in common with the others, which nobody changes. What it makes
lies elsewhere in company, and its clauses and its facet have other numbers.
-/

namespace Assay

/-- What is a body's own before it runs, objects and names as well as clauses and facets. -/
structure Holdings extends Reach where
  clauses : Set Nat
  facets : Set Nat

/-- Nothing is both in the one and in the other. -/
structure Reach.Apart (r s : Reach) : Prop where
  addresses : ∀ a ∈ r.addresses, a ∉ s.addresses
  names : ∀ name ∈ r.names, name ∉ s.names

/-- Nothing belongs to both. -/
structure Holdings.Apart (own other : Holdings) : Prop extends own.toReach.Apart other.toReach where
  clauses : ∀ i ∈ own.clauses, i ∉ other.clauses
  facets : ∀ i ∈ own.facets, i ∉ other.facets

/-! ## Numbers -/

/-- How what is counted from zero is numbered when there is more of it: what is kept has the number
it had, and what is new comes after a gap. -/
structure Shift where
  start : Nat
  kept : Set Nat
  gap : Nat

namespace Shift

/-- The number on the right is that of the same thing as the number on the left. -/
def Moves (s : Shift) (i i' : Nat) : Prop :=
  (i < s.start ∧ i ∈ s.kept ∧ i' = i) ∨ (s.start ≤ i ∧ i' = i + s.gap)

variable {s : Shift} {i i' j j' : Nat}

theorem moves_new (s : Shift) (new : s.start ≤ i) : s.Moves i (i + s.gap) := .inr ⟨new, rfl⟩

theorem Moves.lt_iff (left : s.Moves i i') (right : s.Moves j j') : i < j ↔ i' < j' := by
  unfold Moves at left right
  omega

theorem Moves.eq_iff (left : s.Moves i i') (right : s.Moves j j') : i = j ↔ i' = j' := by
  unfold Moves at left right
  omega

theorem ordered (s : Shift) : Renaming.Ordered s.Moves := ⟨Moves.lt_iff⟩

/-- What is new on one side is new on the other, and what is kept is kept. -/
theorem Moves.kept_or_new (moves : s.Moves i i') : i' ∈ s.kept ∨ s.start + s.gap ≤ i' := by
  rcases moves with ⟨_, kept, rfl⟩ | ⟨new, rfl⟩
  · exact .inl kept
  · exact .inr (Nat.add_le_add_right new _)

/-- Nothing stands for what others have had before. -/
theorem Moves.ne_other (moves : s.Moves i i') (old : j < s.start + s.gap) (other : j ∉ s.kept) :
    i' ≠ j := by
  rintro rfl
  rcases moves.kept_or_new with kept | new
  · exact other kept
  · exact Nat.not_le.mpr old new

/-- The numbers that have been given away grow by the same amount on both sides. -/
theorem Moves.max_succ (moves : s.Moves i i') {n : Nat} (start : s.start ≤ n) :
    max (i' + 1) (n + s.gap) = max (i + 1) n + s.gap := by
  unfold Moves at moves
  omega

end Shift

/-! ## Worlds -/

/-- What lies in a place stays there, and nothing else is renamed. -/
def Renaming.fixing (place : Set Address) : Renaming := fun a a' => a ∈ place ∧ a' = a

/-- What a body has of its own or in common with others refers to nothing else. -/
structure World.Encloses (w : World) (common : Reach) (own : Holdings) : Prop where
  lie : ∀ a ∈ common.addresses ∪ own.addresses, a < w.heap.objects.size
  objects : ∀ a ∈ common.addresses ∪ own.addresses, (w.heap.object a).Renamed
    (.fixing (common.addresses ∪ own.addresses)) (w.heap.object a)
  names : ∀ name ∈ common.names ∪ own.names, ∀ v, w.memory.named? name = some v →
    v.Renamed (.fixing (common.addresses ∪ own.addresses)) v
  clauses : ∀ i ∈ own.clauses, i < Entries.fresh w.clauses ∧ (w.clause i).Renamed
    (.fixing (common.addresses ∪ own.addresses)) (w.clause i)
  facets : ∀ i ∈ own.facets, i < Entries.fresh w.facets ∧
    ∀ test ∈ (w.facet i).tests, test.2 ∈ own.clauses

/-- What a body has of its own or in common with others is still the same in a later world. -/
structure World.Leaves (w now : World) (common : Reach) (own : Holdings) : Prop where
  options : now.options = w.options
  classes : now.heap.classes = w.heap.classes
  size : w.heap.objects.size ≤ now.heap.objects.size
  objects : ∀ a ∈ common.addresses ∪ own.addresses, now.heap.object a = w.heap.object a
  names : ∀ name ∈ common.names ∪ own.names, now.memory.named? name = w.memory.named? name
  freshClause : Entries.fresh w.clauses ≤ Entries.fresh now.clauses
  clauses : ∀ i ∈ own.clauses, now.clause i = w.clause i
  freshFacet : Entries.fresh w.facets ≤ Entries.fresh now.facets
  facets : ∀ i ∈ own.facets, now.facet i = w.facet i

/-- A body has some things in common with others, and some of its own. It starts in one world when
it runs alone, and in a later one when others have run before it. -/
structure Company where
  common : Reach
  own : Holdings
  alone : World
  now : World

namespace Company

variable (c : Company)

def addressShift : Shift where
  start := c.alone.heap.objects.size
  kept := c.common.addresses ∪ c.own.addresses
  gap := c.now.heap.objects.size - c.alone.heap.objects.size

def clauseShift : Shift where
  start := Entries.fresh c.alone.clauses
  kept := c.own.clauses
  gap := Entries.fresh c.now.clauses - Entries.fresh c.alone.clauses

def facetShift : Shift where
  start := Entries.fresh c.alone.facets
  kept := c.own.facets
  gap := Entries.fresh c.now.facets - Entries.fresh c.alone.facets

/-- Which addresses in company stand for which alone. -/
def moves : Renaming := c.addressShift.Moves

/-- The heaps of a body that has run for a while alone, and in company. In company nothing else than
its own has changed. -/
structure Heaps (h h' : Heap) : Prop where
  classes : h.classes = c.alone.heap.classes
  classes' : h'.classes = c.alone.heap.classes
  start : c.alone.heap.objects.size ≤ h.objects.size
  size : h'.objects.size = h.objects.size + c.addressShift.gap
  objects : ∀ a a', c.moves a a' → (h.object a).Renamed c.moves (h'.object a')
  others : ∀ a < c.now.heap.objects.size, a ∉ c.own.addresses →
    h'.object a = c.now.heap.object a

/-- The memories of a body that has run for a while alone, and in company. -/
structure Memories (m m' : Memory) : Prop where
  heaps : c.Heaps m.heap m'.heap
  names : ∀ name ∈ c.common.names ∪ c.own.names,
    Option.Rel (Value.Renamed c.moves) (m.named? name) (m'.named? name)
  others : ∀ name ∉ c.own.names, m'.named? name = c.now.memory.named? name

/-- The same facet alone and in company, whose tests have clauses with numbers below a bound. -/
structure Facets (bound : Nat) (f f' : Facet Nat) : Prop where
  name : f'.name = f.name
  tests : List.Forall₂ (Both Eq fun i i' => c.clauseShift.Moves i i' ∧ i < bound) f.tests f'.tests
  exceptional : f'.exceptional = f.exceptional

/-- The worlds of a body that has run for a while alone, and in company. -/
structure Worlds (w w' : World) : Prop where
  memories : c.Memories w.memory w'.memory
  options : w.options = c.alone.options
  options' : w'.options = c.alone.options
  clauses : ∀ i i', c.clauseShift.Moves i i' → (w.clause i).Renamed c.moves (w'.clause i')
  startClause : Entries.fresh c.alone.clauses ≤ Entries.fresh w.clauses
  freshClause : Entries.fresh w'.clauses = Entries.fresh w.clauses + c.clauseShift.gap
  otherClauses : ∀ i < Entries.fresh c.now.clauses, i ∉ c.own.clauses →
    w'.clause i = c.now.clause i
  facets : ∀ i i', c.facetShift.Moves i i' →
    c.Facets (Entries.fresh w.clauses) (w.facet i) (w'.facet i')
  /-- The facet of the body is entered before the body runs. -/
  entered : Entries.fresh c.alone.facets < Entries.fresh w.facets
  freshFacet : Entries.fresh w'.facets = Entries.fresh w.facets + c.facetShift.gap
  otherFacets : ∀ i < Entries.fresh c.now.facets, i ∉ c.own.facets → w'.facet i = c.now.facet i

/-- Code that does the same alone and in company. It gets at nothing but what it has made, what is
its own and what all have in common, and changes nothing that is not its own; and it does not depend
on where its objects lie, nor on the numbers of its clauses and facets. -/
inductive Alike : Code → Code → Prop where
  | give {v v'} : v.Renamed c.moves v' → Alike (.give v) (.give v')
  | fail {r r'} : r.Renamed c.moves r' → Alike (.fail r) (.fail r')
  | load {next next'} : (∀ m m', c.Memories m m' → Alike (next m) (next' m')) →
      Alike (.load next) (.load next')
  | save {m m' next next'} : c.Memories m m' → Alike next next' →
      Alike (.save m next) (.save m' next')
  | call {i i' call given block block' next next' rescue rescue'} : c.clauseShift.Moves i i' →
      (∀ v v', v.Renamed c.moves v' → Alike (block v) (block' v')) → Alike next next' →
      (∀ r r', r.Renamed c.moves r' → Alike (rescue r) (rescue' r')) →
      Alike (.call i call given block next rescue) (.call i' call given block' next' rescue')
  | register {i i' name next next' rescue rescue'} : c.facetShift.Moves i i' →
      (∀ j j', c.clauseShift.Moves j j' → Alike (next j) (next' j')) →
      (∀ r r', r.Renamed c.moves r' → Alike (rescue r) (rescue' r')) →
      Alike (.register i name next rescue) (.register i' name next' rescue')

end Company

/-- The body of a facet does the same in every later world that leaves its own as it is. -/
def World.Isolates (w : World) (common : Reach) (own : Holdings) (body : Nat → Code) : Prop :=
  ∀ now, w.Leaves now common own → Company.Alike ⟨common, own, w, now⟩
    (body (Entries.fresh w.facets)) (body (Entries.fresh now.facets))

/-! ## Heaps in company -/

theorem Heap.PlainRoot.of_classes {h h' : Heap} (same : h'.classes = h.classes)
    (root : h.PlainRoot) : h'.PlainRoot := by
  obtain ⟨fields, equality, hashing, text⟩ := root
  refine ⟨?_, by rwa [same], by rwa [same], by rwa [same]⟩
  rw [← fields]
  simp only [Heap.hasFieldSource, Heap.slotNames, Heap.lineage, same]

theorem Heap.object_alloc (h : Heap) (o : Object) (a : Address) :
    (h.alloc o).1.object a = if a = h.objects.size then o else h.object a := by
  simp only [Heap.alloc, Heap.object, Array.getElem?_push]
  split <;> rfl

theorem Object.Renamed.isEmptyTuple {R : Renaming} {o o' : Object} (object : o.Renamed R o') :
    (o' == { cls := "tuple", body := .sequence .tuple [] }) =
      (o == { cls := "tuple", body := .sequence .tuple [] }) := by
  obtain ⟨cls, body, attrs, slots⟩ := o
  obtain ⟨cls', body', attrs', slots'⟩ := o'
  obtain ⟨rfl, bodies, attributes, places⟩ := object
  dsimp only at bodies attributes places
  rw [Bool.eq_iff_iff, beq_iff_eq, beq_iff_eq]
  cases attributes <;> cases places <;> cases bodies <;> simp
  rename_i items
  cases items <;> simp

/-- The class table and the common things that bodies can rely on. -/
structure World.Grounds (w : World) (common : Reach) : Prop where
  fair : Fair common w.heap.classes
  root : w.heap.PlainRoot
  /-- The tuple without items is common to all. -/
  empty : 0 ∈ common.addresses

/-- A body that runs in company in a later world, in which its own is as it was. -/
structure Company.Proper (c : Company) : Prop where
  grounds : c.alone.Grounds c.common
  encloses : c.alone.Encloses c.common c.own
  leaves : c.alone.Leaves c.now c.common c.own

namespace Company

variable {c : Company} (proper : c.Proper)

include proper

theorem moves_kept {a : Address} (kept : a ∈ c.common.addresses ∪ c.own.addresses) : c.moves a a :=
  .inl ⟨proper.encloses.lie a kept, kept, rfl⟩

theorem moves_of_fixing (a a' : Address)
    (stays : Renaming.fixing (c.common.addresses ∪ c.own.addresses) a a') : c.moves a a' := by
  obtain ⟨kept, rfl⟩ := stays
  exact moves_kept proper kept

theorem addressShift_gap :
    c.alone.heap.objects.size + c.addressShift.gap = c.now.heap.objects.size := by
  have size := proper.leaves.size
  simp only [addressShift]
  omega

theorem clauseShift_gap :
    Entries.fresh c.alone.clauses + c.clauseShift.gap = Entries.fresh c.now.clauses := by
  have size := proper.leaves.freshClause
  simp only [clauseShift]
  omega

theorem facetShift_gap :
    Entries.fresh c.alone.facets + c.facetShift.gap = Entries.fresh c.now.facets := by
  have size := proper.leaves.freshFacet
  simp only [facetShift]
  omega

namespace Heaps

variable {h h' : Heap} (heaps : c.Heaps h h')

include heaps

theorem twin : h.Twin c.moves h' where
  ordered := c.addressShift.ordered
  classes := heaps.classes'.trans heaps.classes.symm
  size := heaps.size ▸ Nat.le_add_right _ _
  objects := heaps.objects _ _
  impartial := by
    rw [heaps.classes]
    exact proper.grounds.fair c.moves c.addressShift.ordered
      (fun a common => moves_kept proper (.inl common)) h.objects h'.objects heaps.objects
  root := proper.grounds.root.of_classes heaps.classes

omit proper in
theorem fresh : c.moves h.objects.size h'.objects.size := by
  rw [heaps.size]
  exact c.addressShift.moves_new heaps.start

/-- In company everything that was there before is still there. -/
theorem before {a : Nat} (old : a < c.now.heap.objects.size) : a < h'.objects.size := by
  have size : h'.objects.size = h.objects.size + c.addressShift.gap := heaps.size
  have start : c.alone.heap.objects.size ≤ h.objects.size := heaps.start
  have gap := addressShift_gap proper
  omega

theorem alloc {o o' : Object} (object : o.Renamed c.moves o') :
    c.Heaps (h.alloc o).1 (h'.alloc o').1 where
  classes := heaps.classes
  classes' := heaps.classes'
  start := by
    simp only [Heap.alloc, Array.size_push]
    exact Nat.le_succ_of_le heaps.start
  size := by
    simp only [Heap.alloc, Array.size_push, heaps.size]
    omega
  objects a a' here := by
    have same := here.eq_iff heaps.fresh
    rw [Heap.object_alloc, Heap.object_alloc]
    by_cases new : a = h.objects.size
    · rw [if_pos new, if_pos (same.mp new)]
      exact object
    · rw [if_neg new, if_neg fun new' => new (same.mpr new')]
      exact heaps.objects a a' here
  others a old other := by
    rw [Heap.object_alloc, if_neg (Nat.ne_of_lt (heaps.before proper old))]
    exact heaps.others a old other

/-- The tuple without items is the common one. -/
theorem tuple {vs vs' : List Value} (values : c.moves.Values vs vs') :
    c.Heaps (h.tuple vs).1 (h'.tuple vs').1 ∧
      (h.tuple vs).2.Renamed c.moves (h'.tuple vs').2 := by
  have common := moves_kept proper (.inl proper.grounds.empty)
  have shared := (heaps.objects 0 0 common).isEmptyTuple
  have empty : vs'.isEmpty = vs.isEmpty := by cases values <;> rfl
  unfold Heap.tuple
  rw [empty, shared]
  split
  · exact ⟨heaps, .ref common⟩
  · exact ⟨heaps.alloc proper ⟨rfl, .sequence values, .nil, .nil⟩, .ref heaps.fresh⟩

theorem newError (cls : ClassName) {vs vs' : List Value} (values : c.moves.Values vs vs') :
    c.Heaps (h.newError cls vs).1 (h'.newError cls vs').1 ∧
      c.moves (h.newError cls vs).2 (h'.newError cls vs').2 := by
  obtain ⟨heaps, args⟩ := heaps.tuple proper values
  exact ⟨heaps.alloc proper ⟨rfl, .error args, .nil, .nil⟩, heaps.fresh⟩

theorem raise {f f' : Fault} (fault : f.Renamed c.moves f') :
    c.Heaps (h.raise f).1 (h'.raise f').1 ∧ c.moves (h.raise f).2 (h'.raise f').2 := by
  unfold Heap.raise
  rw [fault.cls]
  exact heaps.newError proper _ fault.args

end Heaps

theorem Memories.alloc {m m' : Memory} (memories : c.Memories m m') {o o' : Object}
    (object : o.Renamed c.moves o') : c.Memories (m.alloc o).1 (m'.alloc o').1 :=
  { memories with heaps := memories.heaps.alloc proper object }

theorem Alike.raise {f f' : Fault} (fault : f.Renamed c.moves f') {rescue rescue' : Raised → Code}
    (rescues : ∀ r r', r.Renamed c.moves r' → c.Alike (rescue r) (rescue' r')) :
    c.Alike (.raise f rescue) (.raise f' rescue') := by
  refine .load fun m m' memories => ?_
  have raised := memories.heaps.raise proper fault
  exact .save { memories with heaps := raised.1 } (rescues _ _ (.error raised.2))

end Company

end Assay
