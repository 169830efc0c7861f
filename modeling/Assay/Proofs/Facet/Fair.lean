import Assay.Heap.Standard
import Assay.Proofs.Renaming.Heap
import Mathlib.Data.Set.Basic

/-! # Classes that are fair

What objects of a class come to may hang on what they hold, but not on where they lie. This holds of
the standard classes, so that it need be asked only of what a program declares.
-/

namespace Assay

/-- What code can get at without having made it: objects, and values by name. -/
structure Reach where
  addresses : Set Address
  names : Set String

/-- No class tells objects apart by where they lie, but for those that all have in common. -/
def Fair (common : Reach) (classes : ClassName → ClassInfo) : Prop :=
  ∀ R : Renaming, R.Ordered → (∀ a ∈ common.addresses, R a a) → ∀ os os' : Objects,
    (∀ a a', R a a' → (os[a]?.getD .blank).Renamed R (os'[a']?.getD .blank)) →
    ∀ c, (classes c).Impartial R os os'

/-- What a program says about a class is made of names alone. -/
def ClassInfo.isDeclarative (info : ClassInfo) : Bool :=
  info.attributes.all (fun entry => entry.2 matches .behaviour) &&
    (info.source matches .attributes | .record _) &&
    (info.equality matches .identity | .fieldwise _) &&
    (info.text matches .plain | .record _)

variable {R : Renaming} {os os' : Objects}

theorem ClassInfo.Impartial.of_isDeclarative {info : ClassInfo} (plain : info.isDeclarative = true) :
    info.Impartial R os os' := by
  simp only [isDeclarative, Bool.and_eq_true, List.all_eq_true] at plain
  obtain ⟨⟨⟨attributes, source⟩, equality⟩, text⟩ := plain
  refine ⟨fun name v inside => ?_, fun describe said => ?_, fun describe said => ?_,
    fun compare said => ?_, fun write said => ?_⟩
  · have data := attributes _ inside
    cases data
  · rw [said] at source
    cases source
  · rw [said] at source
    cases source
  · rw [said] at equality
    cases equality
  · rw [said] at text
    cases text

namespace Standard

theorem describeEntry_impartial
    (objects : ∀ a a', R a a' → (os[a]?.getD .blank).Renamed R (os'[a']?.getD .blank))
    (a a' : Address) (here : R a a') :
    Results R False (Description.Renamed R) (describeEntry os a) (describeEntry os' a') := by
  have object := objects a a' here
  have key := object.own? "key"
  have value := object.own? "value"
  simp only [describeEntry, object.cls]
  generalize (os[a]?.getD .blank).own? "key" = k, (os'[a']?.getD .blank).own? "key" = k' at key ⊢
  generalize (os[a]?.getD .blank).own? "value" = v,
    (os'[a']?.getD .blank).own? "value" = v' at value ⊢
  cases key with
  | none => exact .message _ _
  | some key =>
      cases value with
      | none => exact .message _ _
      | some value =>
          exact .ok (.fields (.cons ⟨Key.renamed_text _, key⟩ (.cons ⟨Key.renamed_text _, value⟩ .nil)))

/-- Every standard class but that of mapping entries is made of names alone. -/
theorem declarative : ∀ e ∈ dataClasses ++ errorClasses ++ ownClasses.tail,
    e.2.isDeclarative = true := by
  decide +kernel

theorem table_impartial
    (objects : ∀ a a', R a a' → (os[a]?.getD .blank).Renamed R (os'[a']?.getD .blank))
    {e : ClassName × ClassInfo} (inside : e ∈ table) : e.2.Impartial R os os' := by
  rcases List.mem_append.mp inside with others | own
  · exact .of_isDeclarative (declarative e (List.mem_append_left _ others))
  · rcases List.mem_cons.mp own with rfl | others
    · refine ⟨fun _ _ data => ?_, fun describe said => ?_, fun _ said => ?_, fun _ said => ?_,
        fun _ said => ?_⟩
      · cases data
      · cases said
        exact describeEntry_impartial objects
      all_goals cases said
    · exact .of_isDeclarative (declarative e (List.mem_append_right _ others))

/-- The standard classes are fair, and so are those of a program if they are so themselves. -/
theorem fair_classes {common : Reach} {declared : List (ClassName × ClassInfo)}
    (fair : ∀ e ∈ declared, Fair common fun _ => e.2) : Fair common (classes declared) := by
  intro R ordered shared os os' objects c
  unfold classes
  cases own : declared.find? (·.1 == c) with
  | some e => exact fair e (List.mem_of_find?_eq_some own) R ordered shared os os' objects c
  | none =>
      cases standard : table.find? (·.1 == c) with
      | some e => exact table_impartial objects (List.mem_of_find?_eq_some standard)
      | none => exact .of_isDeclarative rfl

end Standard
end Assay
