import Assay.Proofs.Options.Entries

/-! # Checking documents

A check of a dictionary tells its unknown keys, so it comes to its end unless one of them is an
integer that is too long to be written.  What is found to have no problem is in order.
-/

namespace Assay

/-- Whether a key is an integer that cannot be written. -/
def Key.TooLong (k : Key) : Prop := ∃ n, k.value = .int n ∧ ¬ Integer.isWritable n

/-- The value of a field, null where it is missing. -/
def field (entries : List (Key × Value)) (name : String) : Value := (stated entries name).getD .null

namespace Heap

variable (h : Heap)

/-- What a parser makes of a document: a mapping is a dictionary with plain keys. -/
def Parsed (v : Value) : Prop := ∀ a kind entries, h.shape v = .mapping a kind entries →
  h.Dictionary v entries

/-- The entries of the trace section. -/
def traceEntries (entries : List (Key × Value)) : List (Key × Value) :=
  match h.shape ((stated entries "trace").getD .null) with
  | .mapping _ _ trace => trace
  | _ => []

variable {h} {v data : Value} {entries trace : List (Key × Value)}

/-! ## Unknown keys -/

theorem display_key {k : Key} (plain : ∃ v, k = .plain v ∧ v.IsPlain) :
    (¬ k.TooLong ∧ ∃ text, h.display k.value = .ok text) ∨
      k.TooLong ∧ ∃ f, h.display k.value = .error f := by
  obtain ⟨v, rfl, plain⟩ := plain
  rcases display_plain (h := h) plain with ⟨text, told⟩ | ⟨n, rfl, long, failed⟩
  · refine .inl ⟨?_, text, told⟩
    rintro ⟨n, key, long⟩
    have same : v = .int n := key
    subst same
    simp [display, displayWithin, repr, reprWithin, writeInteger, long] at told
  · exact .inr ⟨⟨n, rfl, long⟩, _, failed⟩

/-- Keys are written, unless one of them is too long. -/
theorem mapM_display {ks : List Key} (plain : ∀ k ∈ ks, ∃ v, k = .plain v ∧ v.IsPlain) :
    (¬ (∃ k ∈ ks, k.TooLong) ∧ ∃ texts, ks.mapM (fun k => h.display k.value) = .ok texts ∧
        texts.length = ks.length) ∨
      (∃ k ∈ ks, k.TooLong) ∧ ∃ f, ks.mapM (fun k => h.display k.value) = .error f := by
  induction ks with
  | nil => exact .inl ⟨by simp, [], rfl, rfl⟩
  | cons k rest ih =>
      obtain ⟨first, others⟩ := List.forall_mem_cons.mp plain
      simp only [List.mapM_cons, bind, Except.bind]
      rcases display_key (h := h) first with ⟨short, text, told⟩ | ⟨long, f, failed⟩
      · simp only [told, List.mem_cons, exists_eq_or_imp, short, false_or]
        rcases ih others with ⟨fits, texts, written, size⟩ | ⟨long, f, failed⟩
        · exact .inl ⟨fits, text :: texts, by simp only [written]; rfl, by simp [size]⟩
        · exact .inr ⟨long, f, by simp only [failed]⟩
      · exact .inr ⟨⟨k, List.mem_cons_self, long⟩, f, by simp only [failed]⟩

/-- The unknown keys of a dictionary are told, unless one is too long. -/
theorem Dictionary.unknownKeys (dictionary : h.Dictionary v entries) (known : List String) :
    (¬ (∃ e ∈ entries, e.1.TooLong) ∧ ∃ texts, Document.unknownKeys h known v = .ok texts) ∨
      (∃ e ∈ entries, e.1.TooLong) ∧ ∃ f, Document.unknownKeys h known v = .error f := by
  let unknown := (entries.map (·.1)).filter fun k => !known.any k.isText
  have plain : ∀ k ∈ unknown, ∃ v, k = .plain v ∧ v.IsPlain := by
    intro k inside
    obtain ⟨e, member, rfl⟩ := List.mem_map.mp (List.mem_filter.mp inside).1
    exact dictionary.keys e member
  -- An integer reads as no text, so one that is too long is never known.
  have kept : (∃ k ∈ unknown, k.TooLong) ↔ ∃ e ∈ entries, e.1.TooLong := by
    constructor
    · rintro ⟨k, inside, long⟩
      obtain ⟨e, member, rfl⟩ := List.mem_map.mp (List.mem_filter.mp inside).1
      exact ⟨e, member, long⟩
    · rintro ⟨e, member, n, key, long⟩
      have strange : ∀ s, e.1.isText s = false := by simp [Key.isText, key, Value.text?]
      exact ⟨e.1, List.mem_filter.mpr ⟨List.mem_map_of_mem member, by simp [strange]⟩, n, key, long⟩
  have told : Document.unknownKeys h known v =
      (unknown.mapM fun k => h.display k.value).map Document.sortWords := by
    simp only [Document.unknownKeys, dictionary.asMembers, bind, Except.bind]
    cases unknown.mapM fun k => h.display k.value <;> rfl
  rw [← kept, told]
  rcases mapM_display (h := h) plain with ⟨fits, texts, written, _⟩ | ⟨long, f, failed⟩
  · exact .inl ⟨fits, _, by rw [written]; rfl⟩
  · exact .inr ⟨long, f, by rw [failed]; rfl⟩

/-! ## Checking -/

theorem Dictionary.field (dictionary : h.Dictionary v entries) (name : String) :
    Document.get h v name = .ok (Assay.field entries name) := dictionary.get name

theorem Parsed.cases (parsed : h.Parsed v) : (∃ entries, h.Dictionary v entries) ∨
    Document.isDictionary h v = false ∧ ∀ a kind entries, h.shape v ≠ .mapping a kind entries := by
  cases shape : h.shape v with
  | mapping a kind entries => exact .inl ⟨entries, parsed a kind entries shape⟩
  | _ =>
      refine .inr ⟨?_, by simp⟩
      cases v with
      | ref a =>
          simp only [Heap.shape] at shape
          unfold Document.isDictionary
          dsimp only at shape ⊢
          split at shape <;> rename_i body <;> simp_all
      | _ => rfl

theorem Dictionary.shape (dictionary : h.Dictionary v entries) :
    ∃ a, h.shape v = .mapping a .dict entries := by
  obtain ⟨a, rfl, _, body⟩ := dictionary.object
  exact ⟨a, by simp only [Heap.shape, body]⟩

theorem Dictionary.not_null (dictionary : h.Dictionary v entries) : (v == .null) = false := by
  obtain ⟨a, rfl, _⟩ := dictionary.object
  rfl

/-- The trace section of a dictionary is null, no dictionary, or one with the trace entries. -/
theorem trace_cases (parsed : h.Parsed (field entries "trace")) :
    (field entries "trace" = .null ∧ h.traceEntries entries = []) ∨
      ((field entries "trace" == .null) = false ∧
        Document.isDictionary h (field entries "trace") = false ∧ h.traceEntries entries = []) ∨
      h.Dictionary (field entries "trace") (h.traceEntries entries) := by
  rcases parsed.cases with ⟨trace, dictionary⟩ | ⟨other, shapes⟩
  · obtain ⟨a, shape⟩ := dictionary.shape
    have entries_eq : h.traceEntries entries = trace := by
      unfold Heap.traceEntries
      rw [show h.shape ((stated entries "trace").getD .null) = _ from shape]
    exact .inr (.inr (entries_eq ▸ dictionary))
  · have none : h.traceEntries entries = [] := by
      unfold Heap.traceEntries
      split
      · rename_i shape
        exact absurd shape (shapes _ _ _)
      · rfl
    by_cases null : field entries "trace" = .null
    · exact .inl ⟨null, none⟩
    · exact .inr (.inl ⟨by simpa using null, other, none⟩)

theorem checkBool_nil {path : String} (none : Document.checkBool path v = []) :
    v = .null ∨ ∃ b, v = .bool b := by
  unfold Document.checkBool at none
  split at none
  · rename_i fine
    cases v <;> simp_all [Document.isBool]
  · cases none

theorem unknownFlags_nil {c : Category} {flags : List Char}
    (none : Options.unknownFlags c flags = []) : ∀ f ∈ flags, f ∈ c.flags := by
  have distinct : (flags.filter fun f => !c.flags.contains f).eraseDups = [] := by
    have size := congrArg List.length none
    simp only [Options.unknownFlags, List.length_mergeSort] at size
    exact List.eq_nil_of_length_eq_zero size
  refine fun f inside => Classical.byContradiction fun strange => ?_
  have left : f ∈ flags.filter fun f => !c.flags.contains f :=
    List.mem_filter.mpr ⟨inside, by simpa using strange⟩
  have still := List.mem_eraseDups.mpr left
  rw [distinct] at still
  cases still

theorem unknownFlags_eq_nil {c : Category} {flags : List Char} :
    Options.unknownFlags c flags = [] ↔ ∀ f ∈ flags, f ∈ c.flags := by
  refine ⟨unknownFlags_nil, fun known => ?_⟩
  have none : (flags.filter fun f => !c.flags.contains f) = [] := by
    simpa [List.filter_eq_nil_iff] using known
  simp only [Options.unknownFlags, none, List.eraseDups_nil, List.mergeSort_nil]

theorem checkFlags_nil {c : Category} (none : Document.checkFlags c v = []) :
    v = .null ∨ ∃ s, v.text? = some s ∧ Options.unknownFlags c s.toList = [] := by
  unfold Document.checkFlags at none
  dsimp only at none
  split at none
  · rename_i null
    exact .inl (by simpa using null)
  · split at none
    · cases none
    · rename_i s reads
      split at none
      · rename_i known
        exact .inr ⟨s, reads, known⟩
      · cases none

/-- A trace section without problems. -/
structure Accepted (trace : List (Key × Value)) : Prop where
  all : field trace "all" = .null ∨ ∃ b, field trace "all" = .bool b
  flags : ∀ c : Category, field trace c.name = .null ∨
    ∃ s, (field trace c.name).text? = some s ∧ Options.unknownFlags c s.toList = []

theorem accepted_nil : Accepted [] where
  all := .inl rfl
  flags _ := .inl rfl

theorem Dictionary.checkTraceKeys (dictionary : h.Dictionary v trace) :
    (¬ (∃ e ∈ trace, e.1.TooLong) ∧ ∃ ps, Document.checkTraceKeys h v = .ok ps ∧
        (ps = [] → Accepted trace)) ∨
      (∃ e ∈ trace, e.1.TooLong) ∧ ∃ f, Document.checkTraceKeys h v = .error f := by
  simp only [Document.checkTraceKeys, bind, Except.bind, dictionary.field, Category.all,
    List.mapM_cons, List.mapM_nil, Except.map, pure, Except.pure]
  rcases dictionary.unknownKeys Document.traceKeys with ⟨fits, texts, told⟩ | ⟨long, f, failed⟩
  · refine .inl ⟨fits, _, by rw [told], fun none => ?_⟩
    simp only [List.append_eq_nil_iff, List.flatten_eq_nil_iff, List.forall_mem_cons] at none
    obtain ⟨⟨_, all⟩, facets, tests, operators, data, _⟩ := none
    refine ⟨checkBool_nil all, fun c => ?_⟩
    cases c with
    | facets => exact checkFlags_nil facets
    | tests => exact checkFlags_nil tests
    | operators => exact checkFlags_nil operators
    | operatorData => exact checkFlags_nil data
  · exact .inr ⟨long, f, by rw [failed]⟩

/-- Some key of a document or of its trace section is too long to be written. -/
abbrev Overlong (h : Heap) (entries : List (Key × Value)) : Prop :=
  (∃ e ∈ entries, e.1.TooLong) ∨ ∃ e ∈ h.traceEntries entries, e.1.TooLong

theorem Dictionary.checkTrace (dictionary : h.Dictionary data entries)
    (parsed : h.Parsed (Assay.field entries "trace")) :
    (¬ (∃ e ∈ h.traceEntries entries, e.1.TooLong) ∧ ∃ ps, Document.checkTrace h data = .ok ps ∧
        (ps = [] → Accepted (h.traceEntries entries) ∧ (Assay.field entries "trace" = .null ∨
          h.Dictionary (Assay.field entries "trace") (h.traceEntries entries)))) ∨
      (∃ e ∈ h.traceEntries entries, e.1.TooLong) ∧ ∃ f, Document.checkTrace h data = .error f := by
  simp only [Document.checkTrace, bind, Except.bind, dictionary.field, pure, Except.pure]
  rcases trace_cases parsed with ⟨null, none⟩ | ⟨given, other, none⟩ | trace
  · rw [none]
    exact .inl ⟨by simp, [], by rw [null]; rfl, fun _ => ⟨accepted_nil, .inl null⟩⟩
  · rw [none]
    exact .inl ⟨by simp, _, by rw [given, other]; rfl, fun none => by cases none⟩
  · rw [trace.not_null, trace.isDictionary]
    rcases trace.checkTraceKeys with ⟨fits, ps, told, sound⟩ | ⟨long, f, failed⟩
    · exact .inl ⟨fits, ps, by simpa using told, fun none => ⟨sound none, .inr trace⟩⟩
    · exact .inr ⟨long, f, by simpa using failed⟩

/-- A check comes to its end unless a key is too long, and what has no problem is in order. -/
theorem Dictionary.check (dictionary : h.Dictionary data entries)
    (parsed : h.Parsed (Assay.field entries "trace")) :
    (¬ h.Overlong entries ∧ ∃ ps, Document.check h data = .ok ps ∧
        (ps = [] → Accepted (h.traceEntries entries) ∧ (Assay.field entries "trace" = .null ∨
          h.Dictionary (Assay.field entries "trace") (h.traceEntries entries)))) ∨
      h.Overlong entries ∧ ∃ f, Document.check h data = .error f := by
  simp only [Document.check, Document.checkTopLevel, bind, Except.bind, dictionary.field, pure,
    Except.pure]
  rcases dictionary.unknownKeys Document.topLevel with ⟨fits, texts, told⟩ | ⟨long, f, failed⟩
  · simp only [told]
    rcases dictionary.checkTrace parsed with ⟨fits', ps, traced, sound⟩ | ⟨long, f, failed⟩
    · refine .inl ⟨not_or.mpr ⟨fits, fits'⟩, _, by rw [traced], fun none => sound ?_⟩
      simp only [List.append_eq_nil_iff] at none
      exact none.1.1.1.1.2
    · exact .inr ⟨.inr long, f, by rw [failed]⟩
  · exact .inr ⟨.inl long, f, by simp only [failed]⟩

end Heap

end Assay
