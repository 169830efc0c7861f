import Assay.Heap.Numeral

/-! # Refused texts

A text is refused where it breaks the rules of the language. Where it keeps them but writes what
does not exist, such as a day that no month has, reading it raises an exception.
-/

namespace Assay.Yaml

/-- Why a text is not read. -/
inductive Refusal where
  | malformed
  | raised (f : Fault)
  deriving DecidableEq, Repr

namespace Refusal

/-- What is not there is malformed. -/
def ofOption {α : Type} : Option α → Except Refusal α
  | some x => .ok x
  | none => .error .malformed

def ofFault {α : Type} : Except Fault α → Except Refusal α
  | .ok x => .ok x
  | .error f => .error (.raised f)

end Refusal

end Assay.Yaml
