import Assay.Facet.Basic
import Assay.Proofs.Renaming.Basic

/-! # Names of tests

Names are told apart as the values are that they stand for: a truth value is a number, and a text is
none.  They are written as a text, but for numbers with too many digits.
-/

namespace Assay.TestName

variable {t u : TestName}

/-- Names stand for the same test if they are the same or count as the same number. -/
theorem same_iff : t.same u = true ↔ t = u ∨ ∃ k, t.number? = some k ∧ u.number? = some k := by
  cases t <;> cases u <;> simp [same, number?] <;> grind

@[simp] theorem same_self (t : TestName) : t.same t = true := same_iff.mpr (.inl rfl)

theorem same_number {k : Int} : t.same (number k) = true ↔ t.number? = some k := by
  cases t <;> simp [same, number?]

theorem isDatum_value (t : TestName) : t.value.isDatum = true := by
  cases t <;> rfl

theorem written_of_writable (writable : t.isWritable) (text : String) :
    t.written text = .ok text := by
  simp [written, writable]

theorem written_of_not_writable (long : ¬ t.isWritable) (text : String) :
    t.written text = .error (.tooManyDigits none) := by
  simp [written, long]

end Assay.TestName
