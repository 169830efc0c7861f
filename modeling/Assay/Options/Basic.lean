import Assay.Heap.Basic
import Assay.Status
import Assay.Text.Quoted

/-! # Run options

Options say, for four levels of detail, which conditions a report shows. Snapshots are taken
only if every level shows something.
-/

namespace Assay

/-- The levels of detail a report can show. -/
inductive Category where
  | facets
  | tests
  | operators
  | operatorData
  deriving DecidableEq, Repr, Inhabited

/-- What is shown or hidden at a level. -/
inductive Condition where
  | pass
  | fail
  | exception
  | notImplemented
  | set
  | diff
  deriving DecidableEq, Repr, Inhabited

namespace Condition

/-- The word for a condition: that of the status, if there is one. -/
def name : Condition → String
  | .pass => Status.pass.name
  | .fail => Status.fail.name
  | .exception => Status.exception.name
  | .notImplemented => Status.notImplemented.name
  | .set => Status.set.name
  | .diff => "diff"

/-- The character that stands for a condition in a text of flags. -/
def flag : Condition → Char
  | .pass => 'p'
  | .fail => 'f'
  | .exception => 'e'
  | .notImplemented => 'n'
  | .set => 's'
  | .diff => 'd'

end Condition

namespace Category

def all : List Category := [.facets, .tests, .operators, .operatorData]

def name : Category → String
  | .facets => "facets"
  | .tests => "tests"
  | .operators => "operators"
  | .operatorData => "operator_data"

def ofName? (word : String) : Option Category :=
  all.find? (·.name == word)

/-- The conditions a level knows, in the order of their flags. -/
def conditions : Category → List Condition
  | .operatorData => [.pass, .fail, .exception, .notImplemented, .set, .diff]
  | _ => [.pass, .fail, .exception, .notImplemented]

/-- The flags a level knows. -/
def flags (c : Category) : List Char := c.conditions.map Condition.flag

end Category

/-- What can be wrong with a request to change options. -/
inductive OptionsError where
  | unknownCategory (word : String)
  | unknownCondition (word : String) (category : Category)
  | unknownFlags (flags : String) (category : Category)
  deriving DecidableEq, Repr

def OptionsError.message : OptionsError → String
  | .unknownCategory word => s!"{Text.quote word} is not a valid TraceCategory"
  | .unknownCondition word c => s!"Unknown condition '{word}' for {c.name}"
  | .unknownFlags flags c =>
    let valid := Text.quote (String.ofList c.flags)
    s!"Unknown trace flag(s) {Text.quote flags} for {c.name}; valid flags are {valid}"

/-- Settings of a run. The values that only an output layer reads are kept as they were given. -/
structure Options where
  /-- Whether a condition is shown at a level. -/
  shows : Category → Condition → Bool
  showDiff : Value := .bool true
  indent : Value := .text "  "
  lineLength : Value := .int 160
  stopOnFail : Value := .bool false

namespace Options

/-- What is shown unless something else is said. -/
def defaultShows : Category → Condition → Bool
  | .facets, c => c == .fail || c == .exception || c == .notImplemented
  | .tests, c | .operators, c => c == .fail || c == .exception
  | .operatorData, c => c == .exception || c == .set || c == .diff

def default : Options := { shows := defaultShows }

instance : Inhabited Options := ⟨default⟩

/-- Every condition hidden. -/
def silent : Options := { default with shows := fun _ _ => false }

/-- Whether any output could show a snapshot. -/
def tracingEnabled (o : Options) : Bool :=
  Category.all.all fun c => c.conditions.any (o.shows c)

/-- The level of a name. -/
def category (word : String) : Except OptionsError Category :=
  match Category.ofName? word with
  | some c => .ok c
  | none => .error (.unknownCategory word)

/-- Decides anew which conditions a level shows. -/
def setCategory (o : Options) (c : Category) (shown : Condition → Bool) : Options :=
  { o with shows := fun c' d => if c' = c then shown d else o.shows c' d }

/-- Shows or hides one condition. -/
def setCondition (o : Options) (c : Category) (word : String) (shown : Bool) :
    Except OptionsError Options :=
  match c.conditions.find? (·.name == word) with
  | some d => .ok (o.setCategory c fun d' => if d' = d then shown else o.shows c d')
  | none => .error (.unknownCondition word c)

/-- The characters of a text that are no flags of a level, each once, in order. -/
def unknownFlags (c : Category) (flags : List Char) : List Char :=
  (flags.filter fun f => !c.flags.contains f).eraseDups.mergeSort fun a b =>
    Text.codePoint a ≤ Text.codePoint b

/-- Shows the conditions whose flags are in the text and hides all others of the level. -/
def setTrace (o : Options) (c : Category) (flags : String) : Except OptionsError Options :=
  match unknownFlags c flags.toList with
  | [] => .ok (o.setCategory c fun d => flags.toList.contains d.flag)
  | unknown => .error (.unknownFlags (String.ofList unknown) c)

/-- Every condition shown. -/
def traceAll (o : Options) : Options :=
  { o with shows := fun _ _ => true }

end Options

end Assay
