import Assay.Proofs.Options.Checked
import Mathlib.Data.List.Forall2

/-! # Places of a document

A check looks at the fields of a document and of its trace section, and at the keys that are no
fields.  Each of these places allows some values; something is wrong where another one is said.  A
full report has a problem for each such place, in an order that does not depend on the document.
-/

namespace Assay

/-! ## The order of words -/

namespace Text

theorem precedes_trans {as bs cs : List Char} (first : precedes as bs = true)
    (second : precedes bs cs = true) : precedes as cs = true := by
  induction as generalizing bs cs with
  | nil => rfl
  | cons a as ih =>
      cases bs with
      | nil => simp [precedes] at first
      | cons b bs =>
          cases cs with
          | nil => simp [precedes] at second
          | cons c cs =>
              simp only [precedes, Bool.or_eq_true, Bool.and_eq_true, decide_eq_true_eq,
                beq_iff_eq] at first second ⊢
              rcases first with less | ⟨same, first⟩ <;> rcases second with less' | ⟨same', second⟩
              · omega
              · omega
              · omega
              · exact .inr ⟨same.trans same', ih first second⟩

theorem precedes_total (as bs : List Char) : (precedes as bs || precedes bs as) = true := by
  induction as generalizing bs with
  | nil => rfl
  | cons a as ih =>
      cases bs with
      | nil => rfl
      | cons b bs =>
          have rest := ih bs
          simp only [precedes, Bool.or_eq_true, Bool.and_eq_true, decide_eq_true_eq,
            beq_iff_eq] at rest ⊢
          rcases Nat.lt_trichotomy (codePoint a) (codePoint b) with less | same | more
          · exact .inl (.inl less)
          · exact rest.imp (fun first => .inr ⟨same, first⟩) fun second => .inr ⟨same.symm, second⟩
          · exact .inr (.inl more)

end Text

theorem Document.sortWords_sorted (words : List String) :
    (sortWords words).Pairwise fun s t => Text.precedes s.toList t.toList = true :=
  @List.pairwise_mergeSort _ (fun s t => Text.precedes s.toList t.toList)
    (fun _ _ _ => Text.precedes_trans) (fun s t => Text.precedes_total s.toList t.toList) words

theorem Document.sortWords_perm (words : List String) : (sortWords words).Perm words :=
  List.mergeSort_perm words _

/-! ## Places -/

/-- What a check looks at: a field, or a key that is no field. -/
inductive Place where
  | key (text : String)
  | trace
  | traceKey (text : String)
  | all
  | level (c : Category)
  | showDiff
  | stopOnFail
  | indent
  | lineLength
  deriving DecidableEq

namespace Place

/-- Whether a place is in the trace section. -/
def inTrace : Place → Bool
  | .traceKey _ | .all | .level _ => true
  | _ => false

/-- Whether a place is a field, and no key that is none. -/
def isField : Place → Bool
  | .key _ | .traceKey _ => false
  | _ => true

def name : Place → String
  | .key text | .traceKey text => text
  | .trace => "trace"
  | .all => "all"
  | .level c => c.name
  | .showDiff => "show_diff"
  | .stopOnFail => "stop_on_fail"
  | .indent => "indent"
  | .lineLength => "line_length"

/-- The path that a problem at the place is reported under. -/
def path (x : Place) : String := if x.inTrace then s!"trace.{x.name}" else x.name

/-- Places of lower rank are reported first. -/
def rank : Place → Nat
  | .key _ => 0
  | .trace => 1
  | .traceKey _ => 2
  | .all => 3
  | .level c => 4 + Category.all.idxOf c
  | .showDiff => 8
  | .stopOnFail => 9
  | .indent => 10
  | .lineLength => 11

/-- The order of a report.  Keys that are no fields come in the order of their texts. -/
def Before : Place → Place → Prop
  | .key s, .key t | .traceKey s, .traceKey t =>
    s ≠ t ∧ Text.precedes s.toList t.toList = true
  | x, y => x.rank < y.rank

/-- What can be said at a place without a problem. -/
def Allows (h : Heap) : Place → Value → Prop
  | .key _, _ | .traceKey _, _ => False
  | .trace, v => v = .null ∨ Document.isDictionary h v = true
  | .all, v | .showDiff, v | .stopOnFail, v => v = .null ∨ ∃ b, v = .bool b
  | .level c, v => v = .null ∨ ∃ s, v.text? = some s ∧ ∀ f ∈ s.toList, f ∈ c.flags
  | .indent, v => v = .null ∨ ∃ s, v.text? = some s
  | .lineLength, v => v = .null ∨ (∀ b, v ≠ .bool b) ∧ ∃ n, v.int? = some n ∧ 1 ≤ n

/-- Whether a key is the one that the place is about. -/
def asks (h : Heap) : Place → Key → Bool
  | .key text, k => !Document.topLevel.any k.isText && (h.display k.value).toOption == some text
  | .traceKey text, k =>
    !Document.traceKeys.any k.isText && (h.display k.value).toOption == some text
  | x, k => k.isText x.name

/-- A field is the only place of its rank. -/
theorem eq_of_rank {x y : Place} (isField : x.isField = true) (same : y.rank = x.rank) : y = x := by
  have few (c : Category) : Category.all.idxOf c < 4 := by cases c <;> decide
  have apart (c c' : Category) (same : Category.all.idxOf c = Category.all.idxOf c') : c = c' := by
    cases c <;> cases c' <;> first | rfl | exact absurd same (by decide)
  cases x <;> cases y <;> grind [rank, isField]

theorem before_of_rank {x y : Place} (less : x.rank < y.rank) : x.Before y := by
  unfold Before
  split
  · simp [rank] at less
  · simp [rank] at less
  · exact less

end Place

namespace Heap

/-- The entries of the trace section, if it is a dictionary. -/
def traceSection (h : Heap) (entries : List (Key × Value)) : List (Key × Value) :=
  if Document.isDictionary h (field entries "trace") then h.traceEntries entries else []

/-- The entries among which a place is. -/
def around (h : Heap) (entries : List (Key × Value)) (x : Place) : List (Key × Value) :=
  if x.inTrace then h.traceSection entries else entries

/-- What is said at a place, if anything is. -/
def said (h : Heap) (entries : List (Key × Value)) (x : Place) : Option Value :=
  ((h.around entries x).find? fun e => x.asks h e.1).map (·.2)

/-- Something is said at the place that is not allowed there. -/
def Wrong (h : Heap) (entries : List (Key × Value)) (x : Place) : Prop :=
  ∃ v, h.said entries x = some v ∧ ¬ x.Allows h v

/-- A problem is about a place: it gives the path, and the value of a field. -/
def IsAbout (h : Heap) (entries : List (Key × Value)) (x : Place) (p : Problem) : Prop :=
  p.path = x.path ∧ p.value = if x.isField then (h.said entries x).getD .null else .null

/-- The keys of entries have texts, and no two of them have the same. -/
structure Named (h : Heap) (entries : List (Key × Value)) : Prop where
  written : ∀ e ∈ entries, ∃ text, h.display e.1.value = .ok text
  apart : entries.Pairwise fun e e' => h.display e.1.value ≠ h.display e'.1.value

/-- Entries that differ at most in a part in which no key is asked for. -/
def SameFor (asks : Key → Bool) (es es' : List (Key × Value)) : Prop :=
  ∃ before changed changed' after, es = before ++ changed ++ after ∧
    es' = before ++ changed' ++ after ∧ ∀ e ∈ changed ++ changed', asks e.1 = false

/-- Documents that differ at most in what has nothing to do with a place: in other fields or keys,
    or in those of the trace section. -/
def Untouched (h : Heap) (entries entries' : List (Key × Value)) (x : Place) : Prop :=
  SameFor ((if x.inTrace then .trace else x : Place).asks h) entries entries' ∨
    x.inTrace = true ∧ SameFor (x.asks h) (h.traceSection entries) (h.traceSection entries')

end Heap

end Assay
