import Assay.Proofs.Snapshot.Positions

/-! # Gathering differences under labels

Labels are looked up as they are now, whether or not they have changed since they were entered.  If to
be the same is an equivalence for labels, and the same labels have one digest, what lies under a label
depends only on what the label is the same as.  So a comparison of children gathers one difference for
all labels that are the same, wherever it comes by them.
-/

namespace Assay

theorem Entries.search_congr {κ ν ε : Type} {isKey isKey' : κ → Except ε Bool} {es : List (κ × ν)}
    (same : ∀ e ∈ es, isKey e.1 = isKey' e.1) :
    Entries.search isKey es = Entries.search isKey' es := by
  induction es with
  | nil => rfl
  | cons e rest ih =>
      obtain ⟨here, later⟩ := List.forall_mem_cons.mp same
      simp only [Entries.search, here, ih later]

namespace Snapshot

variable (h : Heap)

/-- Labels can be compared, to be the same is an equivalence for them, and the same labels have one
    digest. -/
structure LabelsCompare (K : Value → Prop) : Prop where
  total : ∀ u v, K u → K v → ∃ b, sameOr h.equal u v = .ok b
  symm : ∀ u v, K u → K v → h.sameKey u v → h.sameKey v u
  trans : ∀ u v w, K u → K v → K w → h.sameKey u v → h.sameKey v w → h.sameKey u w
  digest : ∀ u v d, K u → K v → h.sameKey u v → h.digest u = .ok d → h.digest v = .ok d

variable {h} {s t : Snapshot} {es es' : List (Key × Snapshot)} {K : Value → Prop} {u v : Value}

/-! ## Looking labels up -/

namespace LabelsCompare

theorem mono (labels : LabelsCompare h K) {L : Value → Prop} (sub : ∀ u, L u → K u) :
    LabelsCompare h L where
  total u v own own' := labels.total u v (sub u own) (sub v own')
  symm u v own own' := labels.symm u v (sub u own) (sub v own')
  trans u v w own own' own'' := labels.trans u v w (sub u own) (sub v own') (sub w own'')
  digest u v d own own' := labels.digest u v d (sub u own) (sub v own')

theorem isFor (labels : LabelsCompare h K) {k : Key} (asked : Key) (known : K k.value)
    (known' : K asked.value) :
    asked.isFor h.equal k = .ok (k.digest == asked.digest && h.sameKey k.value asked.value) := by
  obtain ⟨b, told⟩ := labels.total _ _ known known'
  unfold Key.isFor
  split
  · simp_all [Heap.sameKey]
  · simp_all

/-- Labels that are the same as a third one are the same. -/
theorem join (labels : LabelsCompare h K) {w : Value} (known : K u) (known' : K v) (third : K w)
    (one : h.sameKey u w) (one' : h.sameKey v w) : h.sameKey u v :=
  labels.trans _ _ _ known third known' one (labels.symm _ _ known' third one')

variable {ν : Type} {entries : List (Key × ν)}

/-- Labels that are the same find the same. -/
theorem find?_same (labels : LabelsCompare h K) (within : ∀ e ∈ entries, K e.1.value) (known : K u)
    (known' : K v) (same : h.sameKey u v) {d : Digest} (hashed : h.digest u = .ok d) :
    h.find? u entries = h.find? v entries := by
  have hashed' := labels.digest u v d known known' same hashed
  unfold Heap.find? Heap.under? Heap.key
  simp only [hashed, hashed', Except.map]
  apply Entries.search_congr
  intro e inside
  have own := within e inside
  rw [labels.isFor ⟨u, d⟩ own known, labels.isFor ⟨v, d⟩ own known']
  have both : h.sameKey e.1.value u = h.sameKey e.1.value v := by
    apply Bool.eq_iff_iff.mpr
    exact ⟨fun here => labels.trans _ _ _ own known known' here same,
      fun here => labels.trans _ _ _ own known' known here (labels.symm _ _ known known' same)⟩
  rw [both]

/-- What has a digest can be looked up. -/
theorem find?_answers (labels : LabelsCompare h K) (within : ∀ e ∈ entries, K e.1.value)
    (known : K u) {d : Digest} (hashed : h.digest u = .ok d) : ∃ r, h.find? u entries = .ok r := by
  cases found : h.find? u entries with
  | ok r => exact ⟨r, rfl⟩
  | error f =>
      unfold Heap.find? Heap.under? Heap.key at found
      simp only [hashed, Except.map] at found
      obtain ⟨e, inside, raised⟩ := search_error found
      rw [labels.isFor ⟨u, d⟩ (within e inside) known] at raised
      cases raised

end LabelsCompare

theorem hashed_of_find? {ν : Type} {entries : List (Key × ν)} {r : Option ν}
    (found : h.find? u entries = .ok r) : ∃ d, h.digest u = .ok d := by
  cases hashed : h.digest u with
  | ok d => exact ⟨d, rfl⟩
  | error f => simp [Heap.find?, Heap.under?, Heap.key, hashed, Except.map] at found

/-! ## Under one label -/

theorem compareUnder_hashed {r : Option Snapshot}
    (told : (compareUnder h (candidates h es) es' u).2 = .ok r) : ∃ d, h.digest u = .ok d := by
  cases found : h.find? u (candidates h es) with
  | ok c => exact hashed_of_find? found
  | error f => simp [compareUnder, found] at told

theorem LabelsCompare.compareUnder_same (labels : LabelsCompare h K)
    (within : ∀ e ∈ es, K e.1.value) (within' : ∀ e ∈ es', K e.1.value) (known : K u) (known' : K v)
    (same : h.sameKey u v) {d : Digest} (hashed : h.digest u = .ok d) :
    compareUnder h (candidates h es) es' u = compareUnder h (candidates h es) es' v := by
  unfold compareUnder
  rw [find?_candidates, find?_candidates, labels.find?_same within known known' same hashed,
    labels.find?_same within' known known' same hashed]

/-! ## Gathering what is told under labels -/

variable {step step' : Value → Noted (Option Snapshot)} {us vs : List Value}
  {ds ds' found : List (Key × Snapshot)}

variable (h) in
/-- What is told under labels has been gathered: a difference for each label that has one, and one
    only for labels that are the same. -/
structure Gathered (step : Value → Noted (Option Snapshot)) (us : List Value)
    (ds : List (Key × Snapshot)) : Prop where
  among : ∀ e ∈ ds, e.1.value ∈ us ∧ (step e.1.value).2 = .ok (some e.2)
  current : ∀ e ∈ ds, h.Current e.1
  once : ds.Nodup
  unique : ∀ e ∈ ds, ∀ e' ∈ ds, h.sameKey e.1.value e'.1.value → e = e'
  covers : ∀ u ∈ us, ∀ d, (step u).2 = .ok (some d) → ∃ e ∈ ds, h.sameKey e.1.value u

variable (h K) in
/-- Labels that are the same are told the same. -/
def SameTold (step : Value → Noted (Option Snapshot)) : Prop :=
  ∀ u v r, K u → K v → h.sameKey u v → (step u).2 = .ok r → (step v).2 = .ok r

theorem Gathered.skip (gathered : Gathered h step us ds) {u : Value}
    (told : (step u).2 = .ok none) : Gathered h step (us ++ [u]) ds where
  among e inside := (gathered.among e inside).imp_left (List.mem_append_left _)
  current := gathered.current
  once := gathered.once
  unique := gathered.unique
  covers v inside d told' := by
    rcases List.mem_append.mp inside with old | here
    · exact gathered.covers v old d told'
    · cases List.mem_singleton.mp here
      cases told.symm.trans told'

theorem digest_of_current {k : Key} (current : h.Current k) : h.digest k.value = .ok k.digest := by
  have now : h.key k.value = .ok k := current
  unfold Heap.key at now
  cases digest : h.digest k.value with
  | error f => simp [digest, Except.map] at now
  | ok d =>
      simp only [digest, Except.map, Except.ok.injEq] at now
      rw [← now]

/-- A label adds nothing if something has been gathered under one that is the same. -/
theorem Gathered.again (gathered : Gathered h step us ds) {e : Key × Snapshot} (inside : e ∈ ds)
    (one : h.sameKey e.1.value u) : Gathered h step (us ++ [u]) ds where
  among e' old := (gathered.among e' old).imp_left (List.mem_append_left _)
  current := gathered.current
  once := gathered.once
  unique := gathered.unique
  covers v listed d told := by
    rcases List.mem_append.mp listed with old | here
    · exact gathered.covers v old d told
    · cases List.mem_singleton.mp here
      exact ⟨e, inside, one⟩

/-- A label adds its difference if nothing has been gathered under one that is the same. -/
theorem Gathered.add (gathered : Gathered h step us ds) (labels : LabelsCompare h K)
    (own : ∀ e ∈ ds, K e.1.value) {k : Key} (known : K k.value) (current : h.Current k)
    (new : ∀ e ∈ ds, ¬ h.sameKey e.1.value k.value) {d : Snapshot}
    (told : (step k.value).2 = .ok (some d)) :
    Gathered h step (us ++ [k.value]) (ds ++ [(k, d)]) where
  among := by
    refine List.forall_mem_append.mpr ⟨fun e inside =>
      (gathered.among e inside).imp_left (List.mem_append_left _), ?_⟩
    simp [told]
  current := List.forall_mem_append.mpr ⟨gathered.current, by simpa using current⟩
  once := by
    refine List.nodup_append.mpr ⟨gathered.once, List.nodup_singleton _, ?_⟩
    rintro e inside _ last rfl
    cases List.mem_singleton.mp last
    exact new _ inside (Heap.sameKey_self _)
  unique e inside e' inside' one := by
    rcases List.mem_append.mp inside with old | here <;>
      rcases List.mem_append.mp inside' with old' | here'
    · exact gathered.unique e old e' old' one
    · cases List.mem_singleton.mp here'
      exact absurd one (new e old)
    · cases List.mem_singleton.mp here
      exact absurd (labels.symm _ _ known (own e' old') one) (new e' old')
    · rw [List.mem_singleton.mp here, List.mem_singleton.mp here']
  covers v listed d' told' := by
    rcases List.mem_append.mp listed with old | here
    · obtain ⟨e, there, one⟩ := gathered.covers v old d' told'
      exact ⟨e, List.mem_append_left _ there, one⟩
    · cases List.mem_singleton.mp here
      exact ⟨(k, d), by simp, Heap.sameKey_self _⟩

/-- A difference that is filed under a label is new, or has been filed before. -/
theorem Gathered.file (gathered : Gathered h step us ds) (labels : LabelsCompare h K)
    (same : SameTold h K step) (within : ∀ u ∈ us, K u) {u : Value} (known : K u) {d : Snapshot}
    (told : (step u).2 = .ok (some d)) (filed : h.file ds u d = .ok ds') :
    Gathered h step (us ++ [u]) ds' := by
  have own (e : Key × Snapshot) (inside : e ∈ ds) : K e.1.value :=
    within _ (gathered.among e inside).1
  unfold Heap.file Heap.fileWith at filed
  cases now : h.key u with
  | error f => simp [now] at filed
  | ok key =>
      obtain rfl : key.value = u := Heap.key_value now
      simp only [now] at filed
      rcases Heap.enter_cases filed with ⟨before, k, y, after, rfl, asked, rfl⟩ | ⟨apart, rfl⟩
      · -- The label is there, with the very same difference.
        have one : h.sameKey k.value key.value := Heap.sameKey_of_isFor asked
        have there := (gathered.among (k, y) (by simp)).2
        have told' := same _ _ _ (own (k, y) (by simp)) known one there
        obtain rfl : y = d := Option.some.inj (Except.ok.inj (told'.symm.trans told))
        exact gathered.again (e := (k, y)) (by simp) one
      · refine gathered.add labels own known now (fun e inside one => ?_) told
        have hashed := labels.digest _ _ _ (own e inside) known one
          (digest_of_current (gathered.current e inside))
        rw [digest_of_current now] at hashed
        have asked := apart e inside
        rw [labels.isFor _ (own e inside) known, one, Except.ok.inj hashed] at asked
        simp at asked

theorem compareLabels_gathers (labels : LabelsCompare h K) (same : SameTold h K step)
    (within : ∀ u ∈ us ++ vs, K u) (gathered : Gathered h step us found)
    (told : (compareLabels h step found vs).2 = .ok ds) :
    Gathered h step (us ++ vs) ds ∧ ∀ u ∈ vs, ∃ r, (step u).2 = .ok r := by
  induction vs generalizing us found with
  | nil =>
      cases told
      exact ⟨by simpa using gathered, by simp⟩
  | cons v rest ih =>
      have known : K v := within v (by simp)
      have whole : us ++ [v] ++ rest = us ++ v :: rest := by simp
      simp only [compareLabels] at told
      rcases under : step v with ⟨notes, f | _ | d⟩
      · simp [under] at told
      · simp only [under] at told
        have here : (step v).2 = .ok none := by rw [under]
        have later := ih (by rwa [whole]) (gathered.skip here) told
        rw [whole] at later
        exact ⟨later.1, List.forall_mem_cons.mpr ⟨⟨_, here⟩, later.2⟩⟩
      · simp only [under] at told
        have here : (step v).2 = .ok (some d) := by rw [under]
        cases filed : h.file found v d with
        | error f => simp [filed] at told
        | ok found' =>
            simp only [filed] at told
            have before (u : Value) (inside : u ∈ us) : K u :=
              within u (List.mem_append_left _ inside)
            have later := ih (by rwa [whole]) (gathered.file labels same before known here filed) told
            rw [whole] at later
            exact ⟨later.1, List.forall_mem_cons.mpr ⟨⟨_, here⟩, later.2⟩⟩

/-- What has a digest can be filed. -/
theorem LabelsCompare.file_total (labels : LabelsCompare h K) (before : ∀ e ∈ ds, K e.1.value)
    (known : K u) {digest : Digest} (hashed : h.digest u = .ok digest) (d : Snapshot) :
    ∃ ds', h.file ds u d = .ok ds' ∧ ∀ e ∈ ds', K e.1.value := by
  have key : h.key u = .ok ⟨u, digest⟩ := by rw [Heap.key, hashed, Except.map]
  simp only [Heap.file, Heap.fileWith, key]
  cases entered : Entries.enter ((⟨u, digest⟩ : Key).isFor h.equal) ⟨u, digest⟩ d ds with
  | error f =>
      obtain ⟨e, inside, failed⟩ := enter_error entered
      rw [labels.isFor _ (before e inside) known] at failed
      cases failed
  | ok ds' =>
      have keys : ∀ k ∈ ds'.map (·.1), K k.value := by
        rcases Heap.enter_keys entered with same | ⟨more, _⟩
        · rw [same]
          exact List.forall_mem_map.mpr before
        · rw [more]
          exact List.forall_mem_append.mpr
            ⟨List.forall_mem_map.mpr before, by simpa using known⟩
      exact ⟨ds', rfl, fun e inside => keys e.1 (List.mem_map_of_mem inside)⟩

/-- What is told under labels can be gathered, unless something is raised under one of them. -/
theorem compareLabels_raises (labels : LabelsCompare h K) (known : ∀ u ∈ vs, K u)
    (before : ∀ e ∈ found, K e.1.value) (hashed : ∀ u ∈ vs, ∃ d, h.digest u = .ok d) {f : Fault}
    (raised : (compareLabels h step found vs).2 = .error f) :
    ∃ u ∈ vs, (step u).2 = .error f := by
  induction vs generalizing found with
  | nil => cases raised
  | cons v rest ih =>
      obtain ⟨own, known⟩ := List.forall_mem_cons.mp known
      obtain ⟨⟨digest, hashed'⟩, hashed⟩ := List.forall_mem_cons.mp hashed
      have later {found : List (Key × Snapshot)} (before : ∀ e ∈ found, K e.1.value)
          (raised : (compareLabels h step found rest).2 = .error f) :
          ∃ u ∈ v :: rest, (step u).2 = .error f := by
        obtain ⟨u, inside, here⟩ := ih known before hashed raised
        exact ⟨u, List.mem_cons_of_mem _ inside, here⟩
      simp only [compareLabels] at raised
      rcases under : step v with ⟨notes, f' | _ | d⟩
      · simp only [under, Except.error.injEq] at raised
        exact ⟨v, List.mem_cons_self, by rw [under, raised]⟩
      · simp only [under] at raised
        exact later before raised
      · obtain ⟨found', filed, within⟩ := labels.file_total before own hashed' d
        simp only [under, filed] at raised
        exact later within raised

/-! ## Children -/

/-- The values of the labels, in order. -/
def labelValues (h : Heap) (s t : Snapshot) : List Value := (labelOrder h s t).map (·.value)

theorem exists_of_mem_labelValues (listed : u ∈ labelValues h s t) :
    ∃ e, (e ∈ s.children ∨ e ∈ t.children) ∧ e.1.value = u := by
  obtain ⟨k, inside, rfl⟩ := List.mem_map.mp listed
  rcases mem_labelOrder.mp inside with ⟨e, own, rfl⟩ | ⟨e, other, rfl, _⟩
  · exact ⟨e, .inl own, rfl⟩
  · exact ⟨e, .inr other, rfl⟩

theorem labelValues_known (left : ∀ e ∈ s.children, K e.1.value)
    (right : ∀ e ∈ t.children, K e.1.value) : ∀ u ∈ labelValues h s t, K u := by
  intro u listed
  obtain ⟨e, inside, rfl⟩ := exists_of_mem_labelValues listed
  exact inside.elim (left e) (right e)

/-- A label on either side is the same as one in the order of the other side. -/
theorem labelValues_covers (labels : LabelsCompare h K) (left : ∀ e ∈ s.children, K e.1.value)
    (right : ∀ e ∈ t.children, K e.1.value)
    (hashed : ∀ e ∈ s.children, ∃ d, h.digest e.1.value = .ok d) :
    ∀ u ∈ labelValues h s t, ∃ v ∈ labelValues h t s, h.sameKey u v := by
  refine List.forall_mem_map.mpr fun k inside => ?_
  rcases mem_labelOrder.mp inside with ⟨e, own, rfl⟩ | ⟨e, other, rfl, _⟩
  · obtain ⟨d, digest⟩ := hashed e own
    obtain ⟨r, found⟩ := labels.find?_answers right (left e own) digest
    cases r with
    | none =>
        exact ⟨_, List.mem_map_of_mem (mem_labelOrder.mpr (.inr ⟨e, own, rfl, found⟩)),
          Heap.sameKey_self _⟩
    | some c =>
        obtain ⟨k', inside', one⟩ := Heap.under?_ok found
        refine ⟨k'.value, List.mem_map_of_mem (mem_labelOrder.mpr (.inl ⟨_, inside', rfl⟩)), ?_⟩
        exact labels.symm _ _ (right _ inside') (left e own) one
  · exact ⟨_, List.mem_map_of_mem (mem_labelOrder.mpr (.inl ⟨e, other, rfl⟩)), Heap.sameKey_self _⟩

theorem candidates_values (es : List (Key × Snapshot)) :
    (candidates h es).map (·.1.value) = es.map (·.1.value) := by
  rw [candidates_eq, List.map_map]
  rfl

/-- The children are compared under all labels, in order. -/
theorem compareChildren_eq {extra : List Value}
    (listed : extraLabels h (candidates h s.children) t.children = .ok extra) :
    compareChildren h (candidates h s.children) t.children =
      compareLabels h (compareUnder h (candidates h s.children) t.children) []
        (labelValues h s t) := by
  have delivers := extraLabels_delivers (h := h) (fun _ => True) s.children t.children
    fun _ _ _ _ => trivial
  rw [listed] at delivers
  simp only [compareChildren, listed, candidates_values, delivers.of_ok.1, labelValues, labelOrder,
    List.map_append, List.map_map, Function.comp_def]

theorem LabelsCompare.sameTold (labels : LabelsCompare h K) (left : ∀ e ∈ es, K e.1.value)
    (right : ∀ e ∈ es', K e.1.value) : SameTold h K (compareUnder h (candidates h es) es') := by
  intro u v r known known' same told
  obtain ⟨d, hashed⟩ := compareUnder_hashed told
  rw [← labels.compareUnder_same left right known known' same hashed]
  exact told

theorem gathered_none : Gathered h step [] [] where
  among := by simp
  current := by simp
  once := .nil
  unique := by simp
  covers := by simp

/-- Where children can be compared, all labels have a digest, and what is told under them has been
    gathered. -/
theorem compareChildren_gathers (labels : LabelsCompare h K)
    (left : ∀ e ∈ s.children, K e.1.value) (right : ∀ e ∈ t.children, K e.1.value)
    (told : (compareChildren h (candidates h s.children) t.children).2 = .ok ds) :
    Gathered h (compareUnder h (candidates h s.children) t.children) (labelValues h s t) ds ∧
      (∀ u ∈ labelValues h s t,
        ∃ r, (compareUnder h (candidates h s.children) t.children u).2 = .ok r) ∧
      ∀ e, e ∈ s.children ∨ e ∈ t.children → ∃ d, h.digest e.1.value = .ok d := by
  cases listed : extraLabels h (candidates h s.children) t.children with
  | error f => simp [compareChildren, listed] at told
  | ok extra =>
      rw [compareChildren_eq listed] at told
      have known := labelValues_known (h := h) left right
      have within : ∀ u ∈ [] ++ labelValues h s t, K u := by simpa using known
      obtain ⟨gathered, each⟩ :=
        compareLabels_gathers labels (labels.sameTold left right) within gathered_none told
      have delivers := extraLabels_delivers (h := h) (fun _ => True) s.children t.children
        fun _ _ _ _ => trivial
      rw [listed] at delivers
      refine ⟨gathered, each, fun e inside => ?_⟩
      rcases inside with own | other
      · obtain ⟨r, here⟩ := each e.1.value
          (List.mem_map_of_mem (mem_labelOrder.mpr (.inl ⟨e, own, rfl⟩)))
        exact compareUnder_hashed here
      · obtain ⟨r, found⟩ := delivers.of_ok.2 e other
        exact hashed_of_find? found

/-- Where all labels have a digest, children can be compared, unless something is raised under one of
    the labels. -/
theorem compareChildren_raises (labels : LabelsCompare h K)
    (left : ∀ e ∈ s.children, K e.1.value) (right : ∀ e ∈ t.children, K e.1.value)
    (hashed : ∀ e, e ∈ s.children ∨ e ∈ t.children → ∃ d, h.digest e.1.value = .ok d) {f : Fault}
    (raised : (compareChildren h (candidates h s.children) t.children).2 = .error f) :
    ∃ u ∈ labelValues h s t,
      (compareUnder h (candidates h s.children) t.children u).2 = .error f := by
  have delivers := extraLabels_delivers (h := h) (fun _ => False) s.children t.children
    fun e inside f raised => by
      obtain ⟨d, digest⟩ := hashed e (.inr inside)
      obtain ⟨r, found⟩ := labels.find?_answers left (right e inside) digest
      cases found.symm.trans raised
  cases listed : extraLabels h (candidates h s.children) t.children with
  | error f => exact (listed ▸ delivers).of_error.elim
  | ok extra =>
      rw [compareChildren_eq listed] at raised
      refine compareLabels_raises labels (labelValues_known left right) (by simp) ?_ raised
      intro u listed
      obtain ⟨e, inside, rfl⟩ := exists_of_mem_labelValues listed
      exact hashed e inside

end Snapshot

end Assay
