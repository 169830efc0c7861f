import Assay.Proofs.Snapshot.Drawn

/-! # What snapshots show as a whole

A composite is shown with its members where it is met first.  Where it is met again, its snapshot
shows nothing but its identity.  So a snapshot that has been taken shows no composite as a whole
twice.
-/

namespace Assay

namespace Snapshot

mutual
/-- The composites that a snapshot shows as a whole. -/
def wholes : Snapshot → List Address
  | .node head children =>
    (if head.alreadyReferenced then [] else head.identity.toList) ++ wholesAll children
/-- The composites that children show as a whole. -/
def wholesAll : List (Key × Snapshot) → List Address
  | [] => []
  | (_, s) :: rest => wholes s ++ wholesAll rest
end

theorem wholesAll_eq (es : List (Key × Snapshot)) : wholesAll es = es.flatMap (·.2.wholes) := by
  induction es with
  | nil => simp only [wholesAll, List.flatMap_nil]
  | cons e rest ih => simp only [wholesAll, ih, List.flatMap_cons]

end Snapshot

namespace Heap

variable {h : Heap} {a b x y : Value}

/-! ## What is shown as a whole -/

theorem enter_wholes {isKey : Key → Except Fault Bool} {key : Key} {s : Snapshot}
    {es es' : List (Key × Snapshot)} (entered : Entries.enter isKey key s es = .ok es')
    (c : Address) :
    (Snapshot.wholesAll es').count c ≤ (Snapshot.wholesAll es).count c + s.wholes.count c := by
  simp only [Snapshot.wholesAll_eq]
  rcases enter_cases entered with ⟨before, k, y, after, rfl, _, rfl⟩ | ⟨_, rfl⟩
  · simp only [List.flatMap_append, List.flatMap_cons, List.count_append]
    omega
  · simp only [List.flatMap_append, List.flatMap_singleton, List.count_append]
    omega

theorem labelled_wholes {built children : List (Key × Snapshot)}
    (labelled : h.labelled built = .ok children) (c : Address) :
    (Snapshot.wholesAll children).count c ≤ (Snapshot.wholesAll built).count c := by
  have fewer := labelled_invariant (P := fun kept later => (Snapshot.wholesAll kept).count c +
    (Snapshot.wholesAll later).count c ≤ (Snapshot.wholesAll built).count c) labelled
    (by simp [Snapshot.wholesAll]) fun kept kept' e rest before entered => by
      have now := enter_wholes entered c
      simp only [Snapshot.wholesAll, List.count_append] at before
      omega
  simpa [Snapshot.wholesAll] using fewer

variable (h) in
/-- A walk within a budget enters what its snapshot shows as a whole, each of it once. -/
def EntersWholes (budget : Nat) : Prop := ∀ {seen label v last s},
  h.buildWithin budget seen label v = (last, .ok s) →
    (∀ c, s.wholes.count c + seen.count c ≤ last.count c) ∧ (seen.Nodup → last.Nodup)

theorem Walked.wholes {budget : Nat} (enters : h.EntersWholes budget) {seen last : List Address}
    {ps : List Part} {children : List (Key × Snapshot)}
    (walked : h.Walked budget last seen ps children) :
    (∀ c, (Snapshot.wholesAll children).count c + seen.count c ≤ last.count c) ∧
      (seen.Nodup → last.Nodup) := by
  induction walked with
  | nil => exact ⟨fun c => by simp [Snapshot.wholesAll], id⟩
  | @cons seen seen' p child ps children shown _ ih =>
      have first : (∀ c, child.2.wholes.count c + seen.count c ≤ seen'.count c) ∧
          (seen.Nodup → seen'.Nodup) := by
        cases shown with
        | item built | field built => exact enters built
        | entry _ built built' =>
            obtain ⟨fewer, once⟩ := enters built
            obtain ⟨fewer', once'⟩ := enters built'
            refine ⟨fun c => ?_, once' ∘ once⟩
            have one := fewer c
            have two := fewer' c
            simp only [entryNode, Snapshot.wholes, Snapshot.wholesAll, Option.toList_none,
              List.append_nil, ite_self, List.nil_append, List.count_append]
            omega
      refine ⟨fun c => ?_, ih.2 ∘ first.2⟩
      have one := first.1 c
      have two := ih.1 c
      simp only [Snapshot.wholesAll, List.count_append]
      omega

theorem entersWholes (budget : Nat) : h.EntersWholes budget := by
  induction budget with
  | zero =>
      intro _ _ _ _ _ built
      cases built
  | succ budget ih =>
      intro seen label v last s built
      cases buildWithin_drawing built with
      | leaf | again => exact ⟨fun c => by simp [Snapshot.wholes, Snapshot.wholesAll], id⟩
      | @whole _ _ _ _ a ps built _ children _ new _ walked labelled =>
          obtain ⟨fewer, once⟩ := walked.wholes ih
          constructor
          · intro c
            have all := fewer c
            have kept := labelled_wholes labelled c
            simp only [Snapshot.wholes, Bool.false_eq_true, if_false, Option.toList_some,
              List.count_append] at all kept ⊢
            omega
          · intro before
            refine once (List.nodup_append.mpr ⟨before, by simp, ?_⟩)
            intro c old d here same
            exact new (List.mem_singleton.mp here ▸ same ▸ old)

/-- A snapshot of a value shows no composite as a whole twice. -/
theorem snapshot_wholes {s : Snapshot} (taken : h.snapshot x = .ok s) : s.wholes.Nodup := by
  obtain ⟨fewer, once⟩ := entersWholes (h := h) (h.objects.size + 1)
    (Prod.ext rfl taken : h.buildWithin _ [] .null x = ((h.buildSnapshot [] .null x).1, .ok s))
  refine List.nodup_iff_count_le_one.mpr fun c => ?_
  have one := List.nodup_iff_count_le_one.mp (once List.nodup_nil) c
  have below := fewer c
  simp only [List.count_nil, Nat.add_zero] at below
  omega

end Heap

end Assay
