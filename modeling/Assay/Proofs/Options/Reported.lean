import Assay.Proofs.Options.Filed
import Assay.Proofs.Options.Places
import Assay.Sample.Shapes

/-! # What a check reports

A check of a mapping reports every place where something is wrong, and no other one.  Its parts
report on places of successive ranks, so that their reports are put together one behind the other.
What is said elsewhere makes no difference to a place.
-/

namespace Assay.Heap

/-- Problems report on some ranks: they are about the places of these ranks where something is
    wrong, each once and in order. -/
structure Reports (h : Heap) (entries : List (Key × Value)) (low high : Nat) (places : List Place)
    (ps : List Problem) : Prop where
  ordered : places.Pairwise Place.Before
  exact : ∀ x, x ∈ places ↔ low ≤ x.rank ∧ x.rank < high ∧ h.Wrong entries x
  tells : List.Forall₂ (h.IsAbout entries) places ps

variable {h : Heap} {v data : Value} {entries : List (Key × Value)} {x : Place}
  {low middle high : Nat} {places places' : List Place} {ps ps' : List Problem}

/-! ## Problems together -/

theorem Reports.append (first : h.Reports entries low middle places ps)
    (second : h.Reports entries middle high places' ps') (up : low ≤ middle ∧ middle ≤ high) :
    h.Reports entries low high (places ++ places') (ps ++ ps') where
  ordered := by
    refine List.pairwise_append.mpr ⟨first.ordered, second.ordered, fun x inside y inside' => ?_⟩
    have below := ((first.exact x).mp inside).2.1
    have above := ((second.exact y).mp inside').1
    exact Place.before_of_rank (by omega)
  exact x := by
    rw [List.mem_append, first.exact, second.exact]
    constructor
    · rintro (⟨above, below, wrong⟩ | ⟨above, below, wrong⟩)
      · exact ⟨above, by omega, wrong⟩
      · exact ⟨by omega, below, wrong⟩
    · rintro ⟨above, below, wrong⟩
      by_cases early : x.rank < middle
      · exact .inl ⟨above, early, wrong⟩
      · exact .inr ⟨by omega, below, wrong⟩
  tells := List.rel_append first.tells second.tells

theorem Reports.none (fine : ∀ x : Place, low ≤ x.rank → x.rank < high → ¬ h.Wrong entries x) :
    h.Reports entries low high [] [] where
  ordered := .nil
  exact x := by simpa using fine x
  tells := .nil

/-! ## One field -/

/-- Problems with a value at a place: none if it is allowed, else one that gives it. -/
def Judges (h : Heap) (x : Place) (v : Value) (ps : List Problem) : Prop :=
  (x.Allows h v ∧ ps = []) ∨ ¬ x.Allows h v ∧ ∃ p, ps = [p] ∧ p.path = x.path ∧ p.value = v

theorem said_field (isField : x.isField = true) :
    h.said entries x = stated (h.around entries x) x.name := by
  cases x <;> first | rfl | cases isField

theorem allows_null (isField : x.isField = true) : x.Allows h .null := by
  cases x <;> first | exact .inl rfl | cases isField

theorem reports_field (entries : List (Key × Value)) (x : Place) (isField : x.isField = true)
    (judges : h.Judges x (field (h.around entries x) x.name) ps) :
    ∃ places, h.Reports entries x.rank (x.rank + 1) places ps := by
  have wrong_iff : h.Wrong entries x ↔ ¬ x.Allows h (field (h.around entries x) x.name) := by
    unfold Wrong
    rw [said_field isField, field]
    cases stated (h.around entries x) x.name with
    | none => simpa using allows_null isField
    | some v => simp
  have only {y : Place} : x.rank ≤ y.rank ∧ y.rank < x.rank + 1 ∧ h.Wrong entries y ↔
      y = x ∧ h.Wrong entries x := by
    constructor
    · rintro ⟨above, below, wrong⟩
      obtain rfl := Place.eq_of_rank isField (y := y) (by omega)
      exact ⟨rfl, wrong⟩
    · rintro ⟨rfl, wrong⟩
      exact ⟨Nat.le_refl _, by omega, wrong⟩
  rcases judges with ⟨allowed, rfl⟩ | ⟨refused, p, rfl, path, value⟩
  · refine ⟨[], .nil, fun y => ?_, .nil⟩
    rw [only, wrong_iff]
    simp [allowed]
  · refine ⟨[x], List.pairwise_singleton _ _, fun y => ?_, .cons ⟨path, ?_⟩ .nil⟩
    · rw [only, wrong_iff]
      simp [refused]
    · rw [value, if_pos isField, said_field isField, field]

theorem judges_bool {path : String} (boolean : x = .all ∨ x = .showDiff ∨ x = .stopOnFail)
    (at' : path = x.path) (v : Value) : h.Judges x v (Document.checkBool path v) := by
  have allows : x.Allows h v ↔ v = .null ∨ ∃ b, v = .bool b := by
    rcases boolean with rfl | rfl | rfl <;> rfl
  unfold Judges Document.checkBool
  rw [allows, at']
  cases v <;> simp [Document.isBool]

theorem judges_flags (c : Category) (v : Value) :
    h.Judges (.level c) v (Document.checkFlags c v) := by
  unfold Document.checkFlags
  dsimp only
  split
  · rename_i null
    exact .inl ⟨.inl (by simpa using null), rfl⟩
  · rename_i given
    split
    · rename_i reads
      refine .inr ⟨?_, _, rfl, rfl, rfl⟩
      rintro (null | ⟨s, reads', _⟩)
      · simp [null] at given
      · simp [reads] at reads'
    · rename_i s reads
      split
      · rename_i known
        exact .inl ⟨.inr ⟨s, reads, unknownFlags_nil known⟩, rfl⟩
      · rename_i strange
        refine .inr ⟨?_, _, rfl, rfl, rfl⟩
        rintro (null | ⟨s', reads', known⟩)
        · simp [null] at given
        · obtain rfl : s = s' := by simpa [reads] using reads'
          exact strange (unknownFlags_eq_nil.mpr known)

theorem judges_indent (v : Value) : h.Judges .indent v (Document.checkIndent v) := by
  unfold Judges Document.checkIndent
  by_cases allowed : v = .null ∨ ∃ s, v.text? = some s
  · refine .inl ⟨allowed, if_pos ?_⟩
    simpa [Option.isSome_iff_exists] using allowed
  · refine .inr ⟨allowed, _, if_neg ?_, rfl, rfl⟩
    simpa [Option.isSome_iff_exists] using allowed

theorem judges_lineLength (v : Value) : h.Judges .lineLength v (Document.checkLineLength v) := by
  have length : Document.isLineLength v = true ↔
      (∀ b, v ≠ .bool b) ∧ ∃ n, v.int? = some n ∧ 1 ≤ n := by
    have boolean : Document.isBool v = false ↔ ∀ b, v ≠ .bool b := by
      cases v <;> simp [Document.isBool]
    unfold Document.isLineLength
    rw [Bool.and_eq_true, Bool.not_eq_true', boolean]
    cases v.int? <;> simp
  unfold Judges Document.checkLineLength
  by_cases allowed : v = .null ∨ (∀ b, v ≠ .bool b) ∧ ∃ n, v.int? = some n ∧ 1 ≤ n
  · refine .inl ⟨allowed, if_pos ?_⟩
    simpa [length] using allowed
  · refine .inr ⟨allowed, _, if_neg ?_, rfl, rfl⟩
    simpa [length] using allowed

/-! ## Keys that are no fields -/

theorem toOption_eq_some {ε α : Type} {x : Except ε α} {a : α} :
    x.toOption = some a ↔ x = .ok a := by
  cases x <;> simp [Except.toOption]

theorem mapM_written {vs : List Value} (written : ∀ v ∈ vs, ∃ text, h.display v = .ok text) :
    vs.mapM h.display = .ok (vs.filterMap fun v => (h.display v).toOption) := by
  induction vs with
  | nil => rfl
  | cons v rest ih =>
      obtain ⟨⟨text, told⟩, others⟩ := List.forall_mem_cons.mp written
      simp only [List.mapM_cons, bind, Except.bind, told, ih others, List.filterMap_cons,
        Except.toOption]
      rfl

/-- The unknown keys of a mapping are told by their texts, each once and in order. -/
theorem Mapping.unknownKeys (mapping : h.Mapping v entries) (named : h.Named entries)
    (known : List String) : ∃ texts, Document.unknownKeys h known v = .ok texts ∧
      (texts.Pairwise fun s t => s ≠ t ∧ Text.precedes s.toList t.toList = true) ∧
      ∀ text, text ∈ texts ↔ ∃ e ∈ entries,
        (!known.any e.1.isText && (h.display e.1.value).toOption == some text) = true := by
  let unknown := (entries.map (·.1.value)).filter fun v => !known.any (v.text? == some ·)
  let told := unknown.filterMap fun v => (h.display v).toOption
  have written : ∀ v ∈ unknown, ∃ text, h.display v = .ok text := by
    intro v inside
    obtain ⟨e, member, rfl⟩ := List.mem_map.mp (List.mem_filter.mp inside).1
    exact named.written e member
  have apart : told.Nodup := by
    refine List.pairwise_filterMap.mpr (.filter _ (List.pairwise_map.mpr ?_))
    refine named.apart.imp fun {e e'} apart text first text' second same => apart ?_
    rw [toOption_eq_some.mp first, toOption_eq_some.mp second, same]
  refine ⟨Document.sortWords told, ?_, ?_, fun text => ?_⟩
  · obtain ⟨ks, members, values⟩ := mapping.asMembers
    have strange : (ks.filter fun k => !known.any k.isText).map Key.value = unknown := by
      unfold unknown
      rw [← values, List.filter_map]
      rfl
    have texts : (ks.filter fun k => !known.any k.isText).mapM (fun k => h.display k.value) =
        .ok told := by
      rw [← mapM_written written, ← strange, List.mapM_map]
      rfl
    simp only [Document.unknownKeys, members, bind, Except.bind, texts]
    rfl
  · exact List.Pairwise.and ((Document.sortWords_perm told).nodup_iff.mpr apart)
      (Document.sortWords_sorted told)
  · rw [(Document.sortWords_perm told).mem_iff]
    simp [told, unknown, Key.isText, and_assoc]

theorem wrong_key (noField : x.isField = false) :
    h.Wrong entries x ↔ ∃ e ∈ h.around entries x, x.asks h e.1 = true := by
  have refused (v : Value) : ¬ x.Allows h v := by
    cases x <;> first | exact id | cases noField
  simp only [Wrong, said, refused, not_false_eq_true, and_true, ← List.find?_isSome,
    Option.isSome_iff_exists, Option.map_eq_some_iff]
  exact ⟨fun ⟨_, e, found, _⟩ => ⟨e, found⟩, fun ⟨e, found⟩ => ⟨e.2, e, found, rfl⟩⟩

theorem Reports.keys {make : String → Place} {problem : String → Problem} {texts : List String}
    {rank : Nat} (ranked : ∀ x : Place, x.rank = rank ↔ ∃ text, x = make text)
    (ordered : texts.Pairwise fun s t => (make s).Before (make t))
    (wrong : ∀ text, text ∈ texts ↔ h.Wrong entries (make text))
    (about : ∀ text, h.IsAbout entries (make text) (problem text)) :
    h.Reports entries rank (rank + 1) (texts.map make) (texts.map problem) where
  ordered := List.pairwise_map.mpr ordered
  exact x := by
    constructor
    · intro inside
      obtain ⟨text, member, rfl⟩ := List.mem_map.mp inside
      have rank := (ranked (make text)).mpr ⟨text, rfl⟩
      exact ⟨by omega, by omega, (wrong text).mp member⟩
    · rintro ⟨above, below, bad⟩
      obtain ⟨text, rfl⟩ := (ranked x).mp (by omega)
      exact List.mem_map_of_mem ((wrong text).mpr bad)
  tells := by
    rw [List.forall₂_map_left_iff, List.forall₂_map_right_iff, List.forall₂_same]
    exact fun text _ => about text

theorem Mapping.checkTopLevel (mapping : h.Mapping data entries) (named : h.Named entries) :
    ∃ places ps, Document.checkTopLevel h data = .ok ps ∧ h.Reports entries 0 1 places ps := by
  obtain ⟨texts, told, ordered, members⟩ := mapping.unknownKeys named Document.topLevel
  simp only [Document.checkTopLevel, told, bind, Except.bind]
  refine ⟨texts.map .key, _, rfl, .keys (fun x => ?_) ordered (fun text => ?_) fun _ => ⟨rfl, rfl⟩⟩
  · cases x <;> simp [Place.rank]
  · rw [members, wrong_key rfl]
    rfl

/-! ## The trace section -/

theorem Mapping.checkTraceKeys (mapping : h.Mapping v (h.traceSection entries))
    (named : h.Named (h.traceSection entries)) :
    ∃ places ps, Document.checkTraceKeys h v = .ok ps ∧ h.Reports entries 2 8 places ps := by
  obtain ⟨texts, told, ordered, members⟩ := mapping.unknownKeys named Document.traceKeys
  have keys {problem : String → Problem}
      (about : ∀ text, h.IsAbout entries (.traceKey text) (problem text)) :
      h.Reports entries 2 3 (texts.map .traceKey) (texts.map problem) := by
    refine .keys (fun x => ?_) ordered (fun text => ?_) about
    · cases x <;> simp [Place.rank]
      omega
    · rw [members, wrong_key rfl]
      rfl
  obtain ⟨_, all⟩ := reports_field (h := h) entries .all rfl (judges_bool (.inl rfl) rfl _)
  have level (c : Category) := reports_field (h := h) entries (.level c) rfl (judges_flags c _)
  obtain ⟨_, facets⟩ := level .facets
  obtain ⟨_, tests⟩ := level .tests
  obtain ⟨_, operators⟩ := level .operators
  obtain ⟨_, data⟩ := level .operatorData
  have get (c : Category) := mapping.get c.name (by cases c <;> decide)
  have getAll := mapping.get "all" (by decide)
  simp only [Document.checkTraceKeys, bind, Except.bind, told, getAll, Category.all, List.mapM_cons,
    List.mapM_nil, get, Except.map, pure, Except.pure, List.flatten_cons, List.flatten_nil,
    List.append_nil]
  have flags := facets.append (tests.append (operators.append data (by decide)) (by decide))
    (by decide)
  exact ⟨_, _, rfl, ((keys fun _ => ⟨rfl, rfl⟩).append all (by decide)).append flags (by decide)⟩

/-- Where there is no trace section there is nothing wrong in it. -/
theorem not_wrong_inTrace (none : Document.isDictionary h (field entries "trace") = false)
    (inside : x.inTrace = true) : ¬ h.Wrong entries x := by
  rintro ⟨v, told, _⟩
  simp [said, around, inside, traceSection, none] at told

theorem inTrace_of_rank (above : 2 ≤ x.rank) (below : x.rank < 8) : x.inTrace = true := by
  cases x <;> simp_all [Place.rank, Place.inTrace]

/-- The trace section, if there is one, is a mapping whose keys have different texts. -/
def TraceNamed (h : Heap) (entries : List (Key × Value)) : Prop :=
  Document.isDictionary h (field entries "trace") = true →
    h.Mapping (field entries "trace") (h.traceSection entries) ∧ h.Named (h.traceSection entries)

theorem Mapping.checkTrace (mapping : h.Mapping data entries) (trace : h.TraceNamed entries) :
    ∃ places ps, Document.checkTrace h data = .ok ps ∧ h.Reports entries 1 8 places ps := by
  have others (none : Document.isDictionary h (field entries "trace") = false) :
      h.Reports entries 2 8 [] [] :=
    .none fun x above below => not_wrong_inTrace none (inTrace_of_rank above below)
  simp only [Document.checkTrace, bind, Except.bind, mapping.get "trace" (by decide)]
  by_cases dictionary : Document.isDictionary h (field entries "trace") = true
  · have judges : h.Judges .trace (field entries "trace") [] := .inl ⟨.inr dictionary, rfl⟩
    obtain ⟨_, first⟩ := reports_field entries .trace rfl judges
    obtain ⟨mapping, named⟩ := trace dictionary
    obtain ⟨_, ps, checked, rest⟩ := mapping.checkTraceKeys named
    have given : (field entries "trace" == .null) = false := by
      refine beq_eq_false_iff_ne.mpr fun null => ?_
      simp [null, Document.isDictionary] at dictionary
    exact ⟨_, ps, by simp [given, dictionary, checked], first.append rest (by decide)⟩
  · have none : Document.isDictionary h (field entries "trace") = false := by simpa using dictionary
    by_cases null : field entries "trace" = .null
    · have judges : h.Judges .trace (field entries "trace") [] := .inl ⟨.inl null, rfl⟩
      obtain ⟨_, first⟩ := reports_field entries .trace rfl judges
      exact ⟨_, _, by rw [null]; rfl, first.append (others none) (by decide)⟩
    · have judges : h.Judges .trace (field entries "trace")
          [{ path := "trace", message := "Must be an object", value := field entries "trace" }] :=
        .inr ⟨not_or.mpr ⟨null, dictionary⟩, _, rfl, rfl, rfl⟩
      obtain ⟨_, first⟩ := reports_field entries .trace rfl judges
      exact ⟨_, _, by simp [null, none, pure, Except.pure], first.append (others none) (by decide)⟩

/-! ## A document -/

theorem Mapping.check (mapping : h.Mapping data entries) (named : h.Named entries)
    (trace : h.TraceNamed entries) :
    ∃ places ps, Document.check h data = .ok ps ∧ h.Reports entries 0 12 places ps := by
  obtain ⟨_, top, checkedTop, reportsTop⟩ := mapping.checkTopLevel named
  obtain ⟨_, trace, checkedTrace, reportsTrace⟩ := mapping.checkTrace trace
  obtain ⟨_, showDiff⟩ :=
    reports_field (h := h) entries .showDiff rfl (judges_bool (.inr (.inl rfl)) rfl _)
  obtain ⟨_, stopOnFail⟩ :=
    reports_field (h := h) entries .stopOnFail rfl (judges_bool (.inr (.inr rfl)) rfl _)
  obtain ⟨_, indent⟩ := reports_field (h := h) entries .indent rfl (judges_indent _)
  obtain ⟨_, lineLength⟩ := reports_field (h := h) entries .lineLength rfl (judges_lineLength _)
  simp only [Document.check, bind, Except.bind, checkedTop, checkedTrace,
    mapping.get "show_diff" (by decide), mapping.get "stop_on_fail" (by decide),
    mapping.get "indent" (by decide), mapping.get "line_length" (by decide)]
  exact ⟨_, _, rfl, ((((reportsTop.append reportsTrace (by decide)).append showDiff
    (by decide)).append stopOnFail (by decide)).append indent (by decide)).append lineLength
    (by decide)⟩

/-! ## Other documents -/

theorem SameFor.find? {asks : Key → Bool} {es es' : List (Key × Value)}
    (same : SameFor asks es es') : es'.find? (fun e => asks e.1) = es.find? fun e => asks e.1 := by
  obtain ⟨before, changed, changed', after, rfl, rfl, others⟩ := same
  have none {part : List (Key × Value)} (fewer : part ⊆ changed ++ changed') :
      part.find? (fun e => asks e.1) = none :=
    List.find?_eq_none.mpr fun e inside => by simp [others e (fewer inside)]
  simp only [List.find?_append, none (List.subset_append_left _ _),
    none (List.subset_append_right _ _)]

/-- What is said at a place does not depend on anything else. -/
theorem Untouched.said {entries' : List (Key × Value)}
    (untouched : h.Untouched entries entries' x) :
    h.said entries' x = h.said entries x := by
  unfold Heap.said around
  rcases untouched with same | ⟨inside, same⟩
  · by_cases inside : x.inTrace = true
    · rw [if_pos inside] at same
      have trace : stated entries' "trace" = stated entries "trace" :=
        congrArg (Option.map fun e : Key × Value => e.2) same.find?
      have alike : h.traceSection entries' = h.traceSection entries := by
        unfold traceSection traceEntries field
        rw [trace]
      rw [if_pos inside, if_pos inside, alike]
    · rw [if_neg inside] at same
      rw [if_neg inside, if_neg inside, same.find?]
  · rw [if_pos inside, if_pos inside, same.find?]

end Assay.Heap
