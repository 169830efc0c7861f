import Assay.Proofs.Renaming.Basic
import Mathlib.Data.List.Sort

/-! # Digests under other addresses

A digest tells by its first numbers how many numbers and how many digests follow, so that it can be
read from left to right in one way only. Read so, it shows where it holds addresses.
-/

namespace Assay

namespace Digest

/-- How many numbers and how many digests follow a first number, unless a count or an address
does. -/
def opens : Int → Option (Nat × Nat)
  | 0 => some (1, 0)
  | 4 => some (0, 0)
  | 6 => some (1, 1)
  | 7 | 8 => some (0, 1)
  | _ => none

/-- Two codes, of so many numbers and so many digests, that are the same but for their addresses. -/
inductive Reads (R : Renaming) : Nat → Nat → Digest → Digest → Prop where
  | done : Reads R 0 0 [] []
  | unit {u p d d'} (n : Int) : Reads R u p d d' → Reads R (u + 1) p (n :: d) (n :: d')
  | tag {t u q p d d'} : opens t = some (u, q) → Reads R u (q + p) d d' →
      Reads R 0 (p + 1) (t :: d) (t :: d')
  | units {n p d d'} : Reads R n p d d' → Reads R 0 (p + 1) (1 :: (n : Int) :: d) (1 :: (n : Int) :: d')
  | counted {t : Int} {n p d d'} : t = 2 ∨ t = 3 → Reads R 0 (n + p) d d' →
      Reads R 0 (p + 1) (t :: (n : Int) :: d) (t :: (n : Int) :: d')
  | located {t : Int} {a a' : Nat} {p d d'} : t = 5 ∨ t = 9 → R a a' → Reads R 0 p d d' →
      Reads R 0 (p + 1) (t :: (a : Int) :: d) (t :: (a' : Int) :: d')

/-- The same digest of values at other addresses. -/
def Renamed (R : Renaming) (d d' : Digest) : Prop := Reads R 0 1 d d'

variable {R : Renaming} {u p q : Nat} {d d' e e' : Digest}

theorem Reads.mono {S : Renaming} (more : ∀ a a', R a a' → S a a') (reads : Reads R u p d d') :
    Reads S u p d d' := by
  induction reads with
  | done => exact .done
  | unit n _ ih => exact .unit n ih
  | tag opened _ ih => exact .tag opened ih
  | units _ ih => exact .units ih
  | counted kind _ ih => exact .counted kind ih
  | located kind here _ ih => exact .located kind (more _ _ here) ih

theorem Reads.append (left : Reads R u p d d') (right : Reads R 0 q e e') :
    Reads R u (p + q) (d ++ e) (d' ++ e') := by
  induction left with
  | done => simpa using right
  | unit n _ ih => exact .unit n ih
  | tag opened _ ih =>
      rw [Nat.add_right_comm]
      exact .tag opened (by rwa [← Nat.add_assoc])
  | units _ ih =>
      rw [Nat.add_right_comm]
      exact .units ih
  | counted kind _ ih =>
      rw [Nat.add_right_comm]
      exact .counted kind (by rwa [← Nat.add_assoc])
  | located kind here _ ih =>
      rw [Nat.add_right_comm]
      exact .located kind here ih

theorem Reads.flatten {ds ds' : List Digest} (related : List.Forall₂ (Renamed R) ds ds') :
    Reads R 0 ds.length ds.flatten ds'.flatten := by
  induction related with
  | nil => exact .done
  | cons here _ ih =>
      rw [List.length_cons, Nat.add_comm]
      exact here.append ih

/-! ## Reading two digests at once -/

theorem precedes_cons (m n : Int) (ms ns : Digest) :
    precedes (m :: ms) (n :: ns) = (decide (m < n) || m == n && precedes ms ns) := rfl

/-- Where the first numbers differ they decide. -/
theorem apart_of_ne {m n : Int} {ms ns ms' ns' : Digest} (ne : m ≠ n) :
    ((m :: ms = n :: ns) ↔ (m :: ms' = n :: ns')) ∧
      precedes (m :: ms) (n :: ns) = precedes (m :: ms') (n :: ns') := by
  have apart : (m == n) = false := beq_eq_false_iff_ne.mpr ne
  simp [precedes_cons, ne, apart]

theorem along_of_eq {m n m' n' : Int} {ms ns ms' ns' : Digest} (same : m = n ↔ m' = n')
    (less : m < n ↔ m' < n') (rest : m = n → (ms = ns ↔ ms' = ns') ∧
      precedes ms ns = precedes ms' ns') :
    ((m :: ms = n :: ns) ↔ (m' :: ms' = n' :: ns')) ∧
      precedes (m :: ms) (n :: ns) = precedes (m' :: ms') (n' :: ns') := by
  by_cases equal : m = n
  · have equal' := same.mp equal
    obtain ⟨tails, order⟩ := rest equal
    simp [precedes_cons, equal, equal', tails, order]
  · have unequal : ¬ m' = n' := fun equal' => equal (same.mpr equal')
    have apart : (m == n) = false := beq_eq_false_iff_ne.mpr equal
    have apart' : (m' == n') = false := beq_eq_false_iff_ne.mpr unequal
    simp [precedes_cons, equal, unequal, apart, apart', less]

/-- Two digests are equal if they are under other addresses, and stand in the same order. -/
theorem Reads.agree (ordered : R.Ordered) (left : Reads R u p d d') (right : Reads R u p e e') :
    (d = e ↔ d' = e') ∧ precedes d e = precedes d' e' := by
  have same {m n : Int} {ms ns ms' ns' : Digest} (rest : m = n → (ms = ns ↔ ms' = ns') ∧
      precedes ms ns = precedes ms' ns') := along_of_eq (m := m) (n := n) Iff.rfl Iff.rfl rest
  -- Digests of different kinds are apart from their first numbers on, which hold no addresses.
  induction left generalizing e e' with
  | done =>
      cases right
      exact ⟨Iff.rfl, rfl⟩
  | unit n _ ih =>
      cases right with
      | unit m rest => exact same fun _ => ih rest
  | @tag t u q p _ _ opened _ ih =>
      cases right with
      | @tag s _ _ _ _ _ opened' rest =>
          refine same fun equal => ?_
          cases equal
          cases opened.symm.trans opened'
          exact ih rest
      | units => exact apart_of_ne fun equal => by simp [equal, opens] at opened
      | counted kind | located kind =>
          refine apart_of_ne fun equal => ?_
          rcases kind with other | other <;> simp [equal, other, opens] at opened
  | units _ ih =>
      cases right with
      | tag opened' => exact apart_of_ne fun equal => by simp [← equal, opens] at opened'
      | units rest =>
          refine same fun _ => same fun equal => ?_
          cases Int.ofNat_inj.mp equal
          exact ih rest
      | counted kind | located kind => exact apart_of_ne (by omega)
  | counted kind _ ih =>
      cases right with
      | tag opened' =>
          refine apart_of_ne fun equal => ?_
          rcases kind with other | other <;> simp [← equal, other, opens] at opened'
      | units => exact apart_of_ne (by omega)
      | counted kind' rest =>
          refine same fun _ => same fun equal => ?_
          cases Int.ofNat_inj.mp equal
          exact ih rest
      | located kind' => exact apart_of_ne (by omega)
  | located kind here _ ih =>
      cases right with
      | tag opened' =>
          refine apart_of_ne fun equal => ?_
          rcases kind with other | other <;> simp [← equal, other, opens] at opened'
      | units | counted kind' => exact apart_of_ne (by omega)
      | located kind' here' rest =>
          refine same fun _ => along_of_eq ?_ ?_ fun _ => ih rest
          · rw [Int.ofNat_inj, Int.ofNat_inj]
            exact ordered.eq_iff here here'
          · rw [Int.ofNat_lt, Int.ofNat_lt]
            exact ordered.lt_iff here here'

theorem Renamed.eq_iff (ordered : R.Ordered) (left : Renamed R d d') (right : Renamed R e e') :
    d = e ↔ d' = e' :=
  (Reads.agree ordered left right).1

theorem Renamed.beq (ordered : R.Ordered) (left : Renamed R d d') (right : Renamed R e e') :
    (d == e) = (d' == e') := by
  rw [Bool.eq_iff_iff, beq_iff_eq, beq_iff_eq]
  exact left.eq_iff ordered right

/-! ## Digests of digests -/

theorem renamed_ofTuple {ds ds' : List Digest} (related : List.Forall₂ (Renamed R) ds ds') :
    Renamed R (ofTuple ds) (ofTuple ds') := by
  simp only [ofTuple, ← related.length_eq]
  exact .counted (.inl rfl) (Reads.flatten related)

end Digest

/-- Sorting keeps two lists related where it compares the members of both alike. -/
theorem forall₂_mergeSort {α β : Type} {S : α → β → Prop} {le : α → α → Bool} {le' : β → β → Bool}
    {xs : List α} {xs' : List β} (related : List.Forall₂ S xs xs')
    (same : ∀ x x' y y', S x x' → S y y' → le x y = le' x' y') :
    List.Forall₂ S (xs.mergeSort le) (xs'.mergeSort le') := by
  have pairs (p : α × β) (inside : p ∈ xs.zip xs') : S p.1 p.2 := List.forall₂_zip related inside
  let both (p q : α × β) : Bool := le p.1 q.1
  have lefts : ((xs.zip xs').mergeSort both).map Prod.fst = xs.mergeSort le := by
    have kept := List.map_mergeSort (f := Prod.fst) (r := both) (s := le) (l := xs.zip xs')
      fun _ _ _ _ => rfl
    rw [kept, List.map_fst_zip related.length_eq.le]
  have rights : ((xs.zip xs').mergeSort both).map Prod.snd = xs'.mergeSort le' := by
    have kept := List.map_mergeSort (f := Prod.snd) (r := both) (s := le') (l := xs.zip xs')
      fun p here q there => same _ _ _ _ (pairs p here) (pairs q there)
    rw [kept, List.map_snd_zip related.length_eq.ge]
  rw [← lefts, ← rights, List.forall₂_map_left_iff, List.forall₂_map_right_iff,
    List.forall₂_same]
  exact fun p inside => pairs p ((List.mergeSort_perm _ _).mem_iff.mp inside)

namespace Digest

variable {R : Renaming}

theorem renamed_ofMembers (ordered : R.Ordered) {ds ds' : List Digest}
    (related : List.Forall₂ (Renamed R) ds ds') : Renamed R (ofMembers ds) (ofMembers ds') := by
  have sorted : List.Forall₂ (Renamed R) (ds.mergeSort precedes) (ds'.mergeSort precedes) :=
    forall₂_mergeSort related fun _ _ _ _ left right => (Reads.agree ordered left right).2
  have flat := Reads.flatten sorted
  rw [List.length_mergeSort] at flat
  simp only [ofMembers, ← related.length_eq]
  exact .counted (.inr rfl) flat

/-! ## Digests of plain data -/

theorem renamed_ofResidue (negative : Bool) (residue : Nat) :
    Renamed R (ofResidue negative residue) (ofResidue negative residue) :=
  .tag rfl (.unit _ .done)

theorem renamed_ofInt (n : Int) : Renamed R (ofInt n) (ofInt n) := renamed_ofResidue _ _

theorem renamed_ofBinary64 (x : Binary64) : Renamed R (ofBinary64 x) (ofBinary64 x) := by
  cases x with
  | infinite negative => exact .tag rfl (.unit _ .done)
  | finite negative mantissa exponent => exact renamed_ofResidue _ _

theorem reads_units (units : List Nat) :
    Reads R units.length 0 (units.map fun (n : Nat) => (n : Int))
      (units.map fun (n : Nat) => (n : Int)) := by
  induction units with
  | nil => exact .done
  | cons n rest ih => exact .unit _ ih

theorem renamed_ofUnits (units : List Nat) : Renamed R (ofUnits units) (ofUnits units) := by
  unfold ofUnits
  split
  · exact renamed_ofInt 0
  · exact .units (reads_units units)

theorem renamed_ofText (s : String) : Renamed R (ofText s) (ofText s) := renamed_ofUnits _

theorem renamed_null : Renamed R [4] [4] := .tag rfl .done

theorem renamed_ofDuration (d : Duration) : Renamed R (ofDuration d) (ofDuration d) :=
  renamed_ofTuple (.cons (renamed_ofInt _) (.cons (renamed_ofInt _) (.cons (renamed_ofInt _) .nil)))

theorem renamed_ofMoment (m : Moment) : Renamed R (ofMoment m) (ofMoment m) := by
  unfold ofMoment
  split
  · exact renamed_ofDuration _
  · exact renamed_ofUnits _

end Digest

theorem Value.Renamed.digest {R : Renaming} {v v' : Value} (renamed : v.Renamed R v') :
    v.digest.Renamed R v'.digest := by
  cases renamed with
  | nan here => exact .located (.inl rfl) here .done
  | ref here => exact .located (.inr rfl) here .done
  | datum data =>
      cases v with
      | nan a | ref a => cases data
      | null => exact Digest.renamed_null
      | bool b => exact Digest.renamed_ofInt _
      | int n => exact Digest.renamed_ofInt n
      | float x => exact Digest.renamed_ofBinary64 x
      | text s => exact Digest.renamed_ofText s
      | bytes bs => exact Digest.renamed_ofUnits _
      | pattern source flags => exact .tag rfl (.unit _ (Digest.renamed_ofText source))
      | member m =>
          simp only [Value.digest]
          split
          · exact Digest.renamed_ofInt _
          · exact Digest.renamed_ofText _
          · exact Digest.renamed_ofText _
      | range start stop step =>
          have numbers (d d₁ d₂ : Digest) (first : d.Renamed R d) (second : d₁.Renamed R d₁)
              (third : d₂.Renamed R d₂) :
              (Digest.ofTuple [d, d₁, d₂]).Renamed R (Digest.ofTuple [d, d₁, d₂]) :=
            Digest.renamed_ofTuple (.cons first (.cons second (.cons third .nil)))
          simp only [Value.digest]
          split
          · exact numbers _ _ _ (Digest.renamed_ofInt _) Digest.renamed_null Digest.renamed_null
          · exact numbers _ _ _ (Digest.renamed_ofInt _) (Digest.renamed_ofInt _)
              Digest.renamed_null
          · exact numbers _ _ _ (Digest.renamed_ofInt _) (Digest.renamed_ofInt _)
              (Digest.renamed_ofInt _)
      | date d => exact Digest.renamed_ofUnits [d.year / 256, d.year % 256, d.month, d.day]
      | moment m => exact Digest.renamed_ofMoment m
      | duration d => exact Digest.renamed_ofDuration d
      | cls name | function name => exact .tag rfl (Digest.renamed_ofText name)

/-! ## Keys -/

/-- The same key in a container of values at other addresses. -/
structure Key.Renamed (R : Renaming) (k k' : Key) : Prop where
  value : k.value.Renamed R k'.value
  digest : k.digest.Renamed R k'.digest

namespace Key

variable {R : Renaming} {k k' : Key}

theorem renamed_plain {v : Value} (data : v.isDatum = true) : (plain v).Renamed R (plain v) :=
  ⟨.datum data, Value.Renamed.digest (.datum data)⟩

theorem renamed_text (s : String) : (text s).Renamed R (text s) := renamed_plain rfl

theorem Renamed.mono {S : Renaming} (more : ∀ a a', R a a' → S a a') (renamed : k.Renamed R k') :
    k.Renamed S k' :=
  ⟨renamed.value.mono more, Digest.Reads.mono more renamed.digest⟩

end Key

end Assay
