import Assay.Clause.Basic

/-! # What a chain means

A chain is a sequence of elements, each with a prefix of operators and the verdict of a matcher or
of a group, which is a chain of its own.  Its outcome is their left fold.

Calls come one by one, however, so an element shows as a row of marks.  `Tally` reads the marks in
turn and keeps the operators that have come without a verdict; of these only the last two matter.
-/

namespace Assay

/-- A binary operator. -/
inductive Junction where
  | and
  | or
  | xor
  deriving DecidableEq, Repr

namespace Junction

def operator : Junction → Operator
  | .and => .and
  | .or => .or
  | .xor => .xor

def apply : Junction → Bool → Bool → Bool
  | .and, acc, l => acc && l
  | .or, acc, l => acc || l
  | .xor, acc, l => acc != l

end Junction

/-- A binary operator or none, a number of `not`s, and what gives the verdict.  A group is the
    block of the last of the operators. -/
inductive Element where
  | matched (binary : Option Junction) (nots : Nat) (verdict : Bool)
  | grouped (binary : Option Junction) (nots : Nat) (block : List Element)

/-- The outcome once a verdict has come after a prefix of operators.  A second `not` undoes the
    first, and the outcome before does not count any more. -/
def joined (binary : Option Junction) (nots : Nat) (acc l : Bool) : Bool :=
  match nots, binary with
  | 0, none => l
  | 0, some op => op.apply acc l
  | 1, none => !l
  | 1, some op => op.apply acc !l
  | _ + 2, _ => l

mutual
def Element.outcome (acc : Bool) : Element → Bool
  | .matched binary nots l => joined binary nots acc l
  | .grouped binary nots block => joined binary nots acc (outcomes true block)

/-- The outcome of a chain that starts from another. -/
def outcomes (acc : Bool) : List Element → Bool
  | [] => acc
  | e :: rest => outcomes (e.outcome acc) rest
end

theorem outcomes_eq_foldl (acc : Bool) (es : List Element) :
    outcomes acc es = es.foldl Element.outcome acc := by
  induction es generalizing acc with
  | nil => rfl
  | cons e rest ih => simp only [outcomes, List.foldl_cons, ih]

/-! ## Marks -/

/-- What one call adds to a chain. -/
inductive Mark where
  | setter
  /-- A matcher is called, and the code it is given runs before there is a verdict. -/
  | asked
  | operator (op : Operator)
  | matched (verdict : Bool)
  | grouped (block : List Element)

/-- The marks of a prefix of operators. -/
def prefixMarks (binary : Option Junction) (nots : Nat) : List Mark :=
  (binary.map fun op => Mark.operator op.operator).toList ++ .replicate nots (.operator .not)

def Element.marks : Element → List Mark
  | .matched binary nots l => prefixMarks binary nots ++ [.matched l]
  | .grouped binary nots block => prefixMarks binary nots ++ [.grouped block]

def marks (es : List Element) : List Mark := es.flatMap Element.marks

/-- Whether a mark makes a difference to a chain that has begun. -/
def Mark.counts : Mark → Bool
  | .setter | .asked => false
  | .operator _ | .matched _ | .grouped _ => true

/-! ## Reading marks -/

namespace Operator

/-- What an operator makes of the outcome to its left and the verdict to its right. -/
def apply : Operator → Bool → Bool → Bool
  | .not, _, l => !l
  | .and, acc, l => acc && l
  | .or, acc, l => acc || l
  | .xor, acc, l => acc != l

theorem combine_ofMatch (op : Operator) (acc l : Bool) :
    op.combine (some (.ofMatch acc)) (.ofMatch l) = .ofMatch (op.apply acc l) := by
  cases op <;> cases acc <;> cases l <;> rfl

/-- A `not` takes no notice of what is to its left. -/
theorem combine_not (left : Option Status) (acc l : Bool) :
    Operator.not.combine left (.ofMatch l) = .ofMatch (Operator.not.apply acc l) := by
  cases l <;> rfl

end Operator

/-- What a verdict amounts to after operators, the latest first. -/
def settleAll (acc l : Bool) : List Operator → Bool
  | [] => l
  | [op] => op.apply acc l
  | op :: op' :: _ => op'.apply acc (op.apply acc l)

/-- How far a chain has come: to an outcome and operators after it, the latest first. -/
inductive Tally where
  | fresh
  | begun (acc : Bool) (pending : List Operator)

namespace Tally

/-- A chain must begin with a subject, and a binary operator must follow a verdict. -/
def take : Tally → Mark → Option Tally
  | .fresh, .setter => some (.begun true [])
  | .fresh, _ => none
  | .begun acc pending, .setter | .begun acc pending, .asked => some (.begun acc pending)
  | .begun acc pending, .operator op =>
    if op = .not ∨ pending = [] then some (.begun acc (op :: pending)) else none
  | .begun acc pending, .matched l => some (.begun (settleAll acc l pending) [])
  | .begun acc pending, .grouped block =>
    some (.begun (settleAll acc (outcomes true block) pending) [])

theorem take_operator {t t' : Tally} {op : Operator} (took : t.take (.operator op) = some t') :
    ∃ acc pending, t = .begun acc pending ∧ (op = .not ∨ pending = []) ∧
      t' = .begun acc (op :: pending) := by
  cases t with
  | fresh => cases took
  | begun acc pending =>
      by_cases legal : op = .not ∨ pending = []
      · rw [take, if_pos legal, Option.some.injEq] at took
        exact ⟨acc, pending, rfl, legal, took.symm⟩
      · rw [take, if_neg legal] at took
        cases took

def read (t : Tally) (ms : List Mark) : Option Tally := ms.foldlM take t

@[simp] theorem read_nil (t : Tally) : t.read [] = some t := rfl

@[simp] theorem read_cons (t : Tally) (m : Mark) (ms : List Mark) :
    t.read (m :: ms) = (t.take m).bind (·.read ms) := rfl

theorem read_append (t : Tally) (ms ms' : List Mark) :
    t.read (ms ++ ms') = (t.read ms).bind (·.read ms') :=
  List.foldlM_append

/-- A mark in the middle is read after what comes before it. -/
theorem read_middle {t t' : Tally} {ms ms' : List Mark} {m : Mark}
    (reads : t.read (ms ++ m :: ms') = some t') :
    ∃ t₁ t₂, t.read ms = some t₁ ∧ t₁.take m = some t₂ ∧ t₂.read ms' = some t' := by
  rw [read_append, Option.bind_eq_some_iff] at reads
  obtain ⟨t₁, before, rest⟩ := reads
  rw [read_cons, Option.bind_eq_some_iff] at rest
  obtain ⟨t₂, took, after⟩ := rest
  exact ⟨t₁, t₂, before, took, after⟩

/-- The operators of a prefix, the latest first. -/
def pendingOf (binary : Option Junction) (nots : Nat) : List Operator :=
  .replicate nots .not ++ (binary.map Junction.operator).toList

theorem read_nots (acc : Bool) (pending : List Operator) (nots : Nat) :
    (begun acc pending).read (.replicate nots (.operator .not)) =
      some (.begun acc (.replicate nots .not ++ pending)) := by
  induction nots generalizing pending with
  | zero => rfl
  | succ nots ih =>
      rw [List.replicate_succ, read_cons]
      simp only [take, true_or, if_true, Option.bind_some]
      rw [ih, List.replicate_succ', List.append_assoc]
      rfl

theorem read_prefix (acc : Bool) (binary : Option Junction) (nots : Nat) :
    (begun acc []).read (prefixMarks binary nots) =
      some (.begun acc (pendingOf binary nots)) := by
  cases binary with
  | none => simpa [prefixMarks, pendingOf] using read_nots acc [] nots
  | some op => simpa [prefixMarks, pendingOf, take] using read_nots acc [op.operator] nots

/-- Of the operators of a prefix only the last two take part. -/
theorem settleAll_pendingOf (binary : Option Junction) (nots : Nat) (acc l : Bool) :
    settleAll acc l (pendingOf binary nots) = joined binary nots acc l := by
  match nots, binary with
  | 0, none => rfl
  | 0, some op => cases op <;> rfl
  | 1, none => rfl
  | 1, some op => cases op <;> rfl
  | nots + 2, binary => simp [pendingOf, List.replicate_succ, settleAll, Operator.apply, joined]

theorem read_element (acc : Bool) (e : Element) :
    (begun acc []).read e.marks = some (.begun (e.outcome acc) []) := by
  cases e with
  | matched binary nots l =>
      simp only [Element.marks, read_append, read_prefix, Option.bind_some, read_cons, take,
        read_nil, settleAll_pendingOf, Element.outcome]
  | grouped binary nots block =>
      simp only [Element.marks, read_append, read_prefix, Option.bind_some, read_cons, take,
        read_nil, settleAll_pendingOf, Element.outcome]

/-- Reading the marks of a chain gives its outcome. -/
theorem read_marks (acc : Bool) (es : List Element) :
    (begun acc []).read (marks es) = some (.begun (outcomes acc es) []) := by
  induction es generalizing acc with
  | nil => rfl
  | cons e rest ih =>
      have first := read_element acc e
      have split : marks (e :: rest) = e.marks ++ marks rest := rfl
      rw [split, read_append, first, Option.bind_some, ih]
      rfl

/-- To a chain that has begun only some of the marks make a difference. -/
theorem read_counts (acc : Bool) (pending : List Operator) (ms : List Mark) :
    (begun acc pending).read ms = (begun acc pending).read (ms.filter Mark.counts) := by
  induction ms generalizing acc pending with
  | nil => rfl
  | cons m ms ih =>
      cases m with
      | setter | asked => exact ih acc pending
      | operator op =>
          by_cases legal : op = .not ∨ pending = []
          · simp only [Mark.counts, read_cons, take, legal, if_true, Option.bind_some,
              List.filter_cons]
            exact ih acc (op :: pending)
          · simp only [Mark.counts, read_cons, take, legal, if_false, Option.bind_none,
              List.filter_cons, if_true]
      | matched l => exact ih _ []
      | grouped block => exact ih _ []

end Tally

end Assay
