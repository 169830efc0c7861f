import Assay.Heap.Text
import Assay.Proofs.Heap.Entered
import Assay.Proofs.Renaming.Equality

/-! # Texts on twin heaps

A text shows no address, so that values that are the same on twin heaps are written in the same way.
-/

namespace Assay

variable {R : Renaming}

/-- The two ways to write values give the same texts on two heaps. -/
def WritesAlike (R : Renaming) (write write' : Value → Except Fault String) : Prop :=
  ∀ v v', v.Renamed R v' → Results R False Eq (write v) (write' v')

namespace Heap

section Members

variable {write write' : Value → Except Fault String} (alike : WritesAlike R write write')

include alike

theorem textAll_related {vs vs' : List Value} (values : R.Values vs vs') :
    Results R False Eq (textAll write vs) (textAll write' vs') := by
  induction values with
  | nil => exact .ok rfl
  | @cons v v' vs vs' here _ ih =>
      simp only [textAll]
      have written := alike v v' here
      generalize write v = r, write' v' = r' at written ⊢
      cases written using Results.both with
      | error same => exact .error same
      | ok same =>
          cases same
          exact ih.map fun _ _ same => by rw [same]

theorem entryTexts_related (separator : String) {es es' : List (Value × Value)}
    (entries : List.Forall₂ (Both (Value.Renamed R) (Value.Renamed R)) es es') :
    Results R False Eq (entryTexts write separator es) (entryTexts write' separator es') := by
  rw [← List.forall₂_eq_eq_eq]
  refine Results.mapM entries ?_
  rintro ⟨k, v⟩ ⟨k', v'⟩ ⟨key, value⟩
  refine (alike k k' key).bind fun _ _ same => (alike v v' value).bind fun _ _ same' => .ok ?_
  rw [same, same']

theorem dictText_related {es es' : List (Key × Value)} (entries : R.Filed es es') :
    Results R False Eq (dictText write es) (dictText write' es') := by
  refine (entryTexts_related alike _ (map_related entries ?_)).bind fun _ _ same => .ok (by rw [same])
  exact fun _ _ entry => ⟨entry.1.value, entry.2⟩

end Members

namespace Twin

variable {h h' : Heap} (twin : h.Twin R h')

include twin

theorem objectText (c : ClassName) : h'.objectText c = h.objectText c := by
  simp only [Heap.objectText, twin.classes]

theorem classText (c : ClassName) : h'.classText c = h.classText c := by
  simp only [Heap.classText, twin.classes]

theorem plainText {v v' : Value} (renamed : v.Renamed R v') : h'.plainText v' = h.plainText v := by
  unfold Heap.plainText
  cases renamed with
  | nan => rfl
  | ref here =>
      show h'.objectText _ = h.objectText _
      rw [twin.objectText, (twin.objects here).cls]
  | datum data =>
      cases v with
      | ref a => cases data
      | cls c => exact twin.classText c
      | _ => rfl

theorem dotsText {o o' : Object} (object : o.Renamed R o') : h'.dotsText o' = h.dotsText o := by
  obtain ⟨cls, x, attrs, slots⟩ := o
  obtain ⟨cls', x', attrs', slots'⟩ := o'
  obtain ⟨rfl, body, -, -⟩ := object
  dsimp only at body
  cases body with
  | plain | members => rfl
  | @sequence kind => cases kind <;> rfl
  | @mapping kind => cases kind <;> rfl
  | octets | error => exact twin.objectText _

/-- Where a mapping keeps its keys in order, its values are looked up again under them. -/
theorem orderedEntries {es es' : List (Key × Value)} (filed : R.Filed es es') :
    Results R False (List.Forall₂ (Both (Value.Renamed R) (Value.Renamed R)))
      (es.mapM fun entry => (h.underOwn h.equal entry.1.value es).map (entry.1.value, ·))
      (es'.mapM fun entry => (h'.underOwn h'.equal entry.1.value es').map (entry.1.value, ·)) :=
  Results.mapM filed fun _ _ entry =>
    (twin.underOwn twin.equal entry.1.value filed).map fun _ _ value => ⟨entry.1.value, value⟩

/-- The members of an object are written alike, so that it is. -/
theorem bodyText {write write' : Value → Except Fault String} (alike : WritesAlike R write write')
    {a a' : Address} (here : R a a') :
    Results R False Eq (h.bodyText write a) (h'.bodyText write' a') := by
  have object := twin.objects here
  have all {vs vs' : List Value} (values : R.Values vs vs') (text : List String → String) :
      Results R False Eq (do return text (← textAll write vs))
        (do return text (← textAll write' vs')) :=
    (textAll_related alike values).bind fun _ _ same => .ok (by rw [same])
  have dict {es es' : List (Key × Value)} (entries : R.Filed es es') (text : String → String) :
      Results R False Eq (do return text (← dictText write es))
        (do return text (← dictText write' es')) :=
    (dictText_related alike entries).bind fun _ _ same => .ok (by rw [same])
  unfold Heap.bodyText
  simp only [object.cls, twin.classes, twin.objectText]
  have body := object.body
  generalize (h.object a).body = x, (h'.object a').body = x' at body ⊢
  cases body with
  | @sequence kind _ _ items =>
      cases kind with
      | list | deque => exact all items _
      | tuple =>
          dsimp only
          generalize (h.classes (h.object a).cls).text = form
          cases form <;> exact all items _
  | @mapping kind _ _ entries =>
      cases kind with
      | dict => exact dictText_related alike entries
      | defaulting | view => exact dict entries _
      | frozen => exact .ok rfl
      | ordered =>
          cases entries with
          | nil => exact .ok rfl
          | cons entry entries =>
              exact (twin.orderedEntries (.cons entry entries)).bind fun _ _ entries =>
                (entryTexts_related alike _ entries).bind fun _ _ same => .ok (by rw [same])
  | @members frozen _ _ items =>
      have values := Key.inSetOrder_related items
      cases items with
      | nil => exact .ok rfl
      | cons => exact all values fun texts =>
          if frozen then _ else _
  | octets => exact .ok rfl
  | error args =>
      -- Arguments are written one by one only if they stand in a tuple or the like.
      cases args with
      | nan => exact all .nil _
      | datum data =>
          rename_i v
          cases v <;> first | exact all .nil _ | cases data
      | @ref b b' there =>
          have members := (twin.objects there).body
          dsimp only
          generalize (h.object b).body = y, (h'.object b').body = y' at members ⊢
          cases members with
          | sequence items => exact all items _
          | _ => exact all .nil _
  | plain =>
      dsimp only
      cases form : (h.classes (h.object a).cls).text with
      | plain => exact .ok rfl
      | custom write => exact (twin.impartial _).written write form a a' here
      | record fields =>
          refine (Results.mapM (T := Eq) (List.forall₂_same.mpr fun name _ => rfl) ?_).bind
            fun _ _ same => ?_
          · rintro name _ rfl
            have read := twin.attribute? here name
            generalize h.attribute? a name = y, h'.attribute? a' name = y' at read ⊢
            cases read with
            | none =>
                rw [twin.messageName]
                exact .message _ _
            | some value => exact (alike _ _ value).map fun _ _ same => by rw [same]
          · rw [List.forall₂_eq_eq_eq] at same
            exact .ok (by rw [same])

/-- Where nothing lies there is nothing to be written. -/
theorem rootText {write write' : Value → Except Fault String} {a a' : Address}
    (blank : h.object a = .blank) (here : R a a') :
    Results R False Eq (h.bodyText write a) (h'.bodyText write' a') := by
  have object := twin.objects here
  have plain : (h.object a).body = .plain := by rw [blank]; rfl
  have cls : (h.object a).cls = "object" := by rw [blank]; rfl
  have plain' := twin.plain_body here plain
  simp only [Heap.bodyText, plain, plain', object.cls, cls, twin.classes, twin.root.text,
    twin.objectText]
  exact .ok rfl

/-! ## Budgets -/

/-- No object is entered inside itself, so that the budgets are enough on both heaps. -/
theorem reprWithin {n m : Nat} (le : n ≤ m) {path path' : List Address}
    (related : List.Forall₂ R path path') (entered : h.Entered path)
    (enough : h.objects.size + 2 ≤ n + path.length) {v v' : Value} (renamed : v.Renamed R v') :
    Results R False Eq (h.reprWithin n path v) (h'.reprWithin m path' v') := by
  induction n generalizing m path path' v v' with
  | zero =>
      have room := entered.length
      omega
  | succ n ih =>
      obtain ⟨m, rfl⟩ : ∃ k, m = k + 1 := ⟨m - 1, by omega⟩
      have text : Results R False Eq (.ok (h.plainText v)) (.ok (h'.plainText v')) :=
        .ok (twin.plainText renamed).symm
      cases renamed with
      | nan => exact text
      | datum data =>
          cases v with
          | ref a => cases data
          | int n =>
              simp only [Heap.reprWithin, writeInteger]
              split
              · exact .ok rfl
              · exact .message _ _
          | _ => exact text
      | @ref a a' here =>
          have inside := contains_related twin.ordered related here
          simp only [Heap.reprWithin, inside, twin.dotsText (twin.objects here)]
          split
          · exact .ok rfl
          · rename_i new
            by_cases live : a < h.objects.size
            · refine twin.bodyText (fun v v' renamed => ?_) here
              have new : a ∉ path := by simpa using new
              -- The path grows by one where the budget shrinks by one.
              refine ih (Nat.le_of_succ_le_succ le) (.cons here related)
                ⟨List.nodup_cons.mpr ⟨new, entered.once⟩, List.forall_mem_cons.mpr ⟨live, entered.live⟩⟩
                ?_ renamed
              rw [List.length_cons]
              omega
            · exact twin.rootText (object_absent (Nat.not_lt.mp live)) here

theorem repr {v v' : Value} (renamed : v.Renamed R v') :
    Results R False Eq (h.repr v) (h'.repr v') :=
  twin.reprWithin (Nat.add_le_add_right twin.size 2) .nil .none (Nat.le_refl _) renamed

theorem errorArgs {a a' : Address} (here : R a a') : R.Values (h.errorArgs a) (h'.errorArgs a') := by
  have body := (twin.objects here).body
  unfold Heap.errorArgs
  generalize (h.object a).body = x, (h'.object a').body = x' at body ⊢
  cases body with
  | plain | sequence | mapping | members | octets => exact .nil
  | error args =>
      cases args with
      | nan => exact .nil
      | datum data =>
          rename_i v
          cases v <;> first | exact .nil | cases data
      | @ref b b' there =>
          have members := (twin.objects there).body
          dsimp only
          generalize (h.object b).body = y, (h'.object b').body = y' at members ⊢
          cases members with
          | sequence items => exact items
          | _ => exact .nil

theorem displayWithin_succ (lacking : Prop) (n m : Nat)
    (displays : ∀ v v', v.Renamed R v' → Results R lacking Eq (h.displayWithin n v)
      (h'.displayWithin m v')) (v v' : Value) (renamed : v.Renamed R v') :
    Results R lacking Eq (h.displayWithin (n + 1) v) (h'.displayWithin (m + 1) v') := by
  have shown {v v' : Value} (renamed : v.Renamed R v') :
      Results R lacking Eq (h.repr v) (h'.repr v') := (twin.repr renamed).loosen
  unfold Heap.displayWithin
  cases renamed with
  | nan here => exact shown (.nan here)
  | datum data =>
      cases v with
      | ref a => cases data
      | text | date | moment | duration => exact .ok rfl
      | member m =>
          obtain ⟨cls, name, payload, transparent⟩ := m
          cases payload <;> cases transparent <;> exact .ok rfl
      | _ => exact shown (.datum data)
  | @ref a a' here =>
      have object := twin.objects here
      have body := object.body
      have args := twin.errorArgs here
      dsimp only
      rw [object.cls]
      generalize (h.object a).body = x, (h'.object a').body = x' at body ⊢
      generalize h.errorArgs a = vs, h'.errorArgs a' = vs' at args ⊢
      cases body with
      | error whole =>
          cases args with
          | nil => exact .ok rfl
          | cons first rest =>
              cases rest with
              | cons => exact shown whole
              | nil =>
                  dsimp only
                  rw [twin.isSubclass]
                  split
                  · exact shown first
                  · exact displays _ _ first
      | _ => exact shown (.ref here)

omit twin in
theorem displayWithin_outside (n : Nat) {v : Value} (out : v ∉ h.residents) :
    h.displayWithin (n + 2) v = h.displayWithin (n + 1) v := by
  cases v with
  | ref a => simp only [Heap.displayWithin, object_of_not_resident out, Object.blank]
  | _ => rfl

theorem display {v v' : Value} (renamed : v.Renamed R v') :
    Results R False Eq (h.display v) (h'.display v') := by
  refine Results.settled (Value.Renamed R) h.displayWithin h'.displayWithin twin.ordered ?_
    (fun _ => rfl) (fun _ => rfl) twin.displayWithin_succ h.residents ?_
    (Nat.le_succ_of_le h.card_residents.le) (Nat.succ_le_succ twin.size) renamed
  · rintro _ _ _ rfl rfl
    rfl
  · exact fun n _ _ _ out => displayWithin_outside n out

/-- What was raised is told in the same words. -/
theorem errorText {v v' : Value} (renamed : v.Renamed R v') :
    Results R False Eq (h.errorText v) (h'.errorText v') := by
  refine (twin.display renamed).map fun _ _ same => ?_
  rw [same, twin.typeOf renamed]

end Twin

end Heap

end Assay
