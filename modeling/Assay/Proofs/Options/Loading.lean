import Assay.Proofs.Options.Checked
import Assay.Sample.Shapes

/-! # Loading documents

A document that a parser has made is checked and applied.  It is refused by an exception only where
a key is an integer that is too long to be written; otherwise there are options exactly if there is
no problem, and they are what the document says.
-/

namespace Assay

/-- What a document asks of a setting: what it states, unless that is nothing or null. -/
def given (statement : Option Value) (old : Value) : Value :=
  match statement with
  | none | some .null => old
  | some v => v

/-- What a level shows, by what the trace section states of it. -/
inductive Flagged (c : Category) (shown : Condition → Bool) : Option Value → Prop where
  | absent : shown = Options.default.shows c → Flagged c shown none
  | hidden : (∀ d ∈ c.conditions, shown d = false) → Flagged c shown (some .null)
  | listed {v s} : v.text? = some s → (∀ d ∈ c.conditions, shown d ↔ d.flag ∈ s.toList) →
      Flagged c shown (some v)

namespace Heap

variable (h : Heap)

/-- Options are what a document says. -/
structure Describes (entries : List (Key × Value)) (o : Options) : Prop where
  all : stated (h.traceEntries entries) "all" = some (.bool true) →
    ∀ c : Category, ∀ d ∈ c.conditions, o.shows c d
  levels : stated (h.traceEntries entries) "all" ≠ some (.bool true) →
    ∀ c : Category, Flagged c (o.shows c) (stated (h.traceEntries entries) c.name)
  showDiff : o.showDiff = given (stated entries "show_diff") Options.default.showDiff
  stopOnFail : o.stopOnFail = given (stated entries "stop_on_fail") Options.default.stopOnFail
  indent : o.indent = given (stated entries "indent") Options.default.indent
  lineLength : o.lineLength = given (stated entries "line_length") Options.default.lineLength

variable {h} {v data : Value} {entries trace : List (Key × Value)}

theorem given_eq (statement : Option Value) (old : Value) :
    (if statement.getD .null == .null then old else statement.getD .null) =
      given statement old := by
  cases statement with
  | none => rfl
  | some v => cases v <;> rfl

/-! ## Applying -/

theorem isText_text (s t : String) : (Key.text s).isText t = true ↔ s = t := by
  simp [Key.isText, Key.text, Key.plain, Value.text?]

theorem toString_inj {f g : Char} (same : f.toString = g.toString) : f = g :=
  String.singleton_inj.mp (by simpa [Char.toString_eq_singleton] using same)

theorem anyM_texts {members : List Key} (texts : ∀ k ∈ members, ∃ f : Char, k = .text f.toString)
    (s : String) :
    members.anyM ((Key.text s).isFor h.equal) = .ok (members.any (·.isText s)) := by
  induction members with
  | nil => rfl
  | cons k rest ih =>
      obtain ⟨⟨f, rfl⟩, others⟩ := List.forall_mem_cons.mp texts
      have asked : (Key.text s).isFor h.equal (.text f.toString) =
          .ok ((Key.text f.toString).isText s) := isFor_plain (by simp [Value.IsPlain])
      simp only [List.anyM, bind, Except.bind, asked, List.any_cons, ih others]
      cases (Key.text f.toString).isText s <;> rfl

/-- The set of the characters of a text has each of them, and nothing else. -/
theorem addMembers_chars (cs : List Char) {members : List Key}
    (texts : ∀ k ∈ members, ∃ f : Char, k = .text f.toString) :
    ∃ ks, h.addMembers members (cs.map fun c => .text c.toString) = .ok ks ∧
      (∀ k ∈ ks, ∃ f : Char, k = .text f.toString) ∧
      ∀ f : Char, Key.text f.toString ∈ ks ↔ Key.text f.toString ∈ members ∨ f ∈ cs := by
  induction cs generalizing members with
  | nil => exact ⟨members, rfl, texts, by simp⟩
  | cons c rest ih =>
      have made : h.key (.text c.toString) = .ok (.text c.toString) := rfl
      have step : h.addMember members (.text c.toString) =
          .ok (if members.any (·.isText c.toString) then members
            else members ++ [.text c.toString]) := by
        simp only [addMember, made, anyM_texts texts, Except.map]
      have among : members.any (·.isText c.toString) = true ↔ Key.text c.toString ∈ members := by
        rw [List.any_eq_true]
        constructor
        · rintro ⟨k, inside, reads⟩
          obtain ⟨f, rfl⟩ := texts k inside
          exact (isText_text _ _).mp reads ▸ inside
        · exact fun inside => ⟨_, inside, (isText_text _ _).mpr rfl⟩
      simp only [List.map_cons, addMembers, step]
      by_cases known : Key.text c.toString ∈ members
      · rw [if_pos (among.mpr known)]
        obtain ⟨ks, added, kept, holds⟩ := ih texts
        refine ⟨ks, added, kept, fun f => ?_⟩
        rw [holds, List.mem_cons, ← or_assoc]
        refine or_congr ⟨.inl, ?_⟩ .rfl
        rintro (here | rfl)
        · exact here
        · exact known
      · rw [if_neg (mt among.mp known)]
        have more : ∀ k ∈ members ++ [.text c.toString], ∃ f : Char, k = .text f.toString := by
          intro k inside
          rcases List.mem_append.mp inside with old | new
          · exact texts k old
          · exact ⟨c, List.mem_singleton.mp new⟩
        obtain ⟨ks, added, kept, holds⟩ := ih more
        refine ⟨ks, added, kept, fun f => ?_⟩
        rw [holds, List.mem_append, List.mem_singleton, List.mem_cons, or_assoc]
        refine or_congr .rfl (or_congr ⟨fun same => ?_, fun same => same ▸ rfl⟩ .rfl)
        have texts_eq : f.toString = c.toString := by
          simpa [Key.text, Key.plain] using congrArg Key.value same
        exact toString_inj texts_eq

/-- The flags that a text lists are its characters. -/
theorem flagItems_text {s : String} (reads : v.text? = some s) :
    ∃ ks, Document.flagItems h v = .ok ks ∧ (∀ k ∈ ks, ∃ f : Char, k = .text f.toString) ∧
      ∀ f : Char, Key.text f.toString ∈ ks ↔ f ∈ s.toList := by
  have truth : h.truth v = !s.isEmpty := by
    cases v with
    | text t => simp_all [Value.text?, Heap.truth]
    | member m =>
        rcases m with ⟨cls, name, payload, transparent⟩
        cases transparent <;> cases payload <;> simp_all [Value.text?, Heap.truth]
    | _ => simp [Value.text?] at reads
  have members : h.asMembers v = h.addMembers [] (s.toList.map fun c => .text c.toString) := by
    cases v with
    | text t => simp_all [Value.text?, Heap.asMembers, Heap.items]
    | member m =>
        rcases m with ⟨cls, name, payload, transparent⟩
        cases transparent <;> cases payload <;> simp_all [Value.text?, Heap.asMembers, Heap.items]
    | _ => simp [Value.text?] at reads
  unfold Document.flagItems
  rw [truth, members]
  by_cases empty : s = ""
  · subst empty
    exact ⟨[], rfl, by simp, by simp⟩
  · have some : s.isEmpty = false := by simpa using empty
    rw [some]
    have none : ∀ k ∈ ([] : List Key), ∃ f : Char, k = .text f.toString := by simp
    obtain ⟨ks, added, kept, holds⟩ := addMembers_chars (h := h) s.toList none
    exact ⟨ks, added, kept, fun f => by simpa using holds f⟩

/-- What options keep when one level is set. -/
structure SameBut (o o' : Options) : Prop where
  showDiff : o'.showDiff = o.showDiff
  stopOnFail : o'.stopOnFail = o.stopOnFail
  indent : o'.indent = o.indent
  lineLength : o'.lineLength = o.lineLength

theorem applyFlags_null (o : Options) (c : Category) :
    Document.applyFlags h o c .null = .ok (o.setCategory c fun _ => false) := rfl

theorem applyFlags_text {s : String} (reads : v.text? = some s) (o : Options) (c : Category)
    (known : ∀ f ∈ s.toList, f ∈ c.flags) :
    ∃ shown, Document.applyFlags h o c v = .ok (o.setCategory c shown) ∧
      ∀ d : Condition, shown d ↔ d.flag ∈ s.toList := by
  obtain ⟨ks, items, texts, holds⟩ := flagItems_text (h := h) reads
  have flag (f : Char) : ks.any (·.isText f.toString) = true ↔ f ∈ s.toList := by
    rw [← holds, List.any_eq_true]
    constructor
    · rintro ⟨k, inside, same⟩
      obtain ⟨g, rfl⟩ := texts k inside
      exact (isText_text _ _).mp same ▸ inside
    · exact fun inside => ⟨_, inside, (isText_text _ _).mpr rfl⟩
  have none : (ks.filter fun k => !c.flags.any fun f => k.isText f.toString) = [] := by
    refine List.filter_eq_nil_iff.mpr fun k inside => ?_
    obtain ⟨f, rfl⟩ := texts k inside
    have listed := known f ((holds f).mp inside)
    simpa using ⟨f, listed, (isText_text _ _).mpr rfl⟩
  refine ⟨fun d => ks.any (·.isText d.flag.toString), ?_, fun d => flag d.flag⟩
  simp only [Document.applyFlags, items, bind, Except.bind, none]
  rfl

/-- Applied level by level, a trace section without problems sets each level as it says. -/
theorem applyLevels_accepted (keys : ∀ e ∈ trace, ∃ k, e.1 = .plain k ∧ k.IsPlain)
    (accepted : Accepted trace) {cs : List Category} (once : cs.Nodup) {o : Options}
    (fresh : ∀ c ∈ cs, o.shows c = Options.default.shows c) :
    ∃ o', Document.applyLevels h trace o cs = .ok o' ∧ SameBut o o' ∧
      (∀ c, c ∉ cs → o'.shows c = o.shows c) ∧
      ∀ c ∈ cs, Flagged c (o'.shows c) (stated trace c.name) := by
  induction cs generalizing o with
  | nil => exact ⟨o, rfl, ⟨rfl, rfl, rfl, rfl⟩, by simp, by simp⟩
  | cons c rest ih =>
      obtain ⟨apart, others⟩ := List.nodup_cons.mp once
      -- The levels that follow find the options as they were, but for the level set here.
      have later {shown : Condition → Bool} (here : Flagged c shown (stated trace c.name)) :
          ∃ o', Document.applyLevels h trace (o.setCategory c shown) rest = .ok o' ∧ SameBut o o' ∧
            (∀ c', c' ∉ c :: rest → o'.shows c' = o.shows c') ∧
            ∀ c' ∈ c :: rest, Flagged c' (o'.shows c') (stated trace c'.name) := by
        have kept (c' : Category) (ne : c' ≠ c) : (o.setCategory c shown).shows c' = o.shows c' := by
          simp [Options.setCategory, ne]
        obtain ⟨o', applied, ⟨sd, sf, si, sl⟩, untouched, set⟩ := ih others (o := o.setCategory c shown)
          fun c' inside => (kept c' fun same => apart (same ▸ inside)).trans
            (fresh c' (List.mem_cons_of_mem _ inside))
        refine ⟨o', applied, ⟨sd, sf, si, sl⟩, fun c' out => ?_, ?_⟩
        · rw [List.mem_cons, not_or] at out
          rw [untouched c' out.2, kept c' out.1]
        · refine List.forall_mem_cons.mpr ⟨?_, set⟩
          rw [untouched c apart]
          simpa [Options.setCategory] using here
      simp only [Document.applyLevels, find?_plain keys]
      cases statement : stated trace c.name with
      | none =>
          dsimp only
          obtain ⟨o', applied, same, untouched, set⟩ := ih others
            fun c' inside => fresh c' (List.mem_cons_of_mem _ inside)
          refine ⟨o', applied, same, fun c' out => untouched c' fun inside =>
            out (List.mem_cons_of_mem _ inside), List.forall_mem_cons.mpr ⟨?_, set⟩⟩
          rw [statement]
          exact .absent ((untouched c apart).trans (fresh c List.mem_cons_self))
      | some flags =>
          rw [statement] at later
          have field_eq : field trace c.name = flags := by simp [field, statement]
          rcases accepted.flags c with null | ⟨s, reads, known⟩
          · rw [field_eq] at null
            subst null
            simp only [applyFlags_null]
            exact later (.hidden fun _ _ => rfl)
          · rw [field_eq] at reads
            obtain ⟨shown, applied, flagged⟩ :=
              applyFlags_text (h := h) reads o c (unknownFlags_nil known)
            simp only [applied]
            exact later (.listed reads fun d _ => flagged d)

theorem truth_trace (null : v = .null ∨ ∃ b, v = .bool b) :
    h.truth v = true ↔ v = .bool true := by
  rcases null with rfl | ⟨b, rfl⟩
  · simp [Heap.truth]
  · simp [Heap.truth]

theorem category_mem (c : Category) : c ∈ Category.all := by cases c <;> decide

/-- A trace section without problems is applied as it says. -/
theorem applyTrace_accepted (accepted : Accepted (h.traceEntries entries))
    (part : field entries "trace" = .null ∨
      h.Dictionary (field entries "trace") (h.traceEntries entries)) :
    ∃ o, Document.applyTrace h (field entries "trace") = .ok o ∧ SameBut .default o ∧
      (stated (h.traceEntries entries) "all" = some (.bool true) →
        ∀ c : Category, ∀ d ∈ c.conditions, o.shows c d) ∧
      (stated (h.traceEntries entries) "all" ≠ some (.bool true) →
        ∀ c : Category, Flagged c (o.shows c) (stated (h.traceEntries entries) c.name)) := by
  have untouched (none : h.traceEntries entries = []) :
      (stated (h.traceEntries entries) "all" = some (.bool true) →
        ∀ c : Category, ∀ d ∈ c.conditions, Options.default.shows c d) ∧
      (stated (h.traceEntries entries) "all" ≠ some (.bool true) → ∀ c : Category,
        Flagged c (Options.default.shows c) (stated (h.traceEntries entries) c.name)) := by
    rw [none]
    exact ⟨nofun, fun _ _ => .absent rfl⟩
  rcases part with null | dictionary
  · refine ⟨.default, by rw [null]; rfl, ⟨rfl, rfl, rfl, rfl⟩, untouched ?_⟩
    unfold Heap.traceEntries
    rw [show (stated entries "trace").getD .null = .null from null]
    rfl
  · obtain ⟨a, shape⟩ := dictionary.shape
    by_cases none : h.traceEntries entries = []
    · refine ⟨.default, ?_, ⟨rfl, rfl, rfl, rfl⟩, untouched none⟩
      simp [Document.applyTrace, dictionary.truth, none]
    · have filled : h.truth (field entries "trace") = true := by simpa [dictionary.truth] using none
      have all_iff : h.truth (field (h.traceEntries entries) "all") = true ↔
          stated (h.traceEntries entries) "all" = some (.bool true) := by
        rw [truth_trace accepted.all]
        unfold field
        cases stated (h.traceEntries entries) "all" <;> simp
      simp only [Document.applyTrace, filled, dictionary.field, shape, Bool.not_true,
        Bool.false_eq_true, if_false]
      by_cases all : h.truth (field (h.traceEntries entries) "all") = true
      · rw [if_pos all]
        exact ⟨_, rfl, ⟨rfl, rfl, rfl, rfl⟩, fun _ _ _ _ => rfl,
          fun other => absurd (all_iff.mp all) other⟩
      · rw [if_neg all]
        have once : Category.all.Nodup := by decide
        obtain ⟨o, applied, same, _, set⟩ := applyLevels_accepted (h := h) dictionary.keys accepted
          once (o := .default) fun _ _ => rfl
        exact ⟨o, applied, same, fun stated => absurd (all_iff.mpr stated) all,
          fun _ c => set c (category_mem c)⟩

/-- A document without problems is applied, and gives the options that it describes. -/
theorem Dictionary.build (dictionary : h.Dictionary data entries)
    (accepted : Accepted (h.traceEntries entries))
    (part : Assay.field entries "trace" = .null ∨
      h.Dictionary (Assay.field entries "trace") (h.traceEntries entries)) :
    ∃ o note, Document.build h data = .ok (o, note) ∧ h.Describes entries o := by
  obtain ⟨o, applied, same, all, levels⟩ := applyTrace_accepted accepted part
  simp only [Document.build, bind, Except.bind, dictionary.field, applied, pure, Except.pure]
  refine ⟨_, _, rfl, all, levels, ?_, ?_, ?_, ?_⟩
  · exact (given_eq _ _).trans (by rw [same.showDiff])
  · exact (given_eq _ _).trans (by rw [same.stopOnFail])
  · exact (given_eq _ _).trans (by rw [same.indent])
  · exact (given_eq _ _).trans (by rw [same.lineLength])

/-- Loading a dictionary comes to its end unless a key is too long, and gives the options that it
    describes if it has no problem. -/
theorem Dictionary.load (dictionary : h.Dictionary data entries)
    (parsed : h.Parsed (Assay.field entries "trace")) (source : String) :
    (¬ h.Overlong entries ∧ ∃ l, Document.load h data source = .ok l ∧
        (l.options.isSome ↔ l.problems = []) ∧
        (l.problems = [] → ∃ o, l.options = some o ∧ h.Describes entries o)) ∨
      h.Overlong entries ∧ ∃ f, Document.load h data source = .error f := by
  simp only [Document.load, dictionary.not_null, dictionary.isDictionary, Bool.not_true,
    Bool.false_eq_true, if_false, bind, Except.bind, pure, Except.pure]
  rcases dictionary.check parsed with ⟨fits, ps, checked, sound⟩ | ⟨long, f, failed⟩
  · refine .inl ⟨fits, ?_⟩
    simp only [checked]
    cases ps with
    | nil =>
        obtain ⟨accepted, part⟩ := sound rfl
        obtain ⟨o, note, built, describes⟩ := dictionary.build accepted part
        simp only [List.isEmpty_nil, if_true, built]
        exact ⟨_, rfl, by simp, fun _ => ⟨o, rfl, describes⟩⟩
    | cons p rest => exact ⟨_, rfl, by simp, fun none => by cases none⟩
  · exact .inr ⟨long, f, by simp only [failed]⟩

/-- A document that a parser has made is loaded, unless some key is an integer that is too long to
    be written.  There are options exactly if there are no problems; those of an empty document are
    the default ones, and a dictionary gives the options that it describes. -/
theorem load_parsed (h : Heap) (data : Value) (source : String) (parsed : h.Parsed data)
    (nested : ∀ entries, h.Dictionary data entries → h.Parsed (field entries "trace")) :
    ((∃ f, Document.load h data source = .error f) ↔
        ∃ entries, h.Dictionary data entries ∧ h.Overlong entries) ∧
      ∀ l, Document.load h data source = .ok l →
        (l.options.isSome ↔ l.problems = []) ∧
        (data = .null → l.problems = [] ∧ l.options = some .default) ∧
        ∀ entries, h.Dictionary data entries → l.problems = [] →
          ∃ o, l.options = some o ∧ h.Describes entries o := by
  have entries_eq {es es' : List (Key × Value)} (one : h.Dictionary data es)
      (other : h.Dictionary data es') : es = es' := by
    obtain ⟨_, shape⟩ := one.shape
    obtain ⟨_, shape'⟩ := other.shape
    rw [shape] at shape'
    exact (Shape.mapping.inj shape').2.2
  rcases parsed.cases with ⟨entries, dictionary⟩ | ⟨other, _⟩
  · have present : data ≠ .null := by simpa using dictionary.not_null
    rcases dictionary.load (nested entries dictionary) source with
      ⟨fits, l, loaded, settled, describes⟩ | ⟨long, f, failed⟩
    · refine ⟨⟨fun ⟨f, failed⟩ => ?_, fun ⟨es, same, long⟩ => ?_⟩, fun l' loaded' => ?_⟩
      · rw [loaded] at failed
        cases failed
      · exact absurd (entries_eq same dictionary ▸ long) fits
      · cases loaded.symm.trans loaded'
        refine ⟨settled, fun null => absurd null present, fun es same none => ?_⟩
        exact entries_eq dictionary same ▸ describes none
    · refine ⟨⟨fun _ => ⟨entries, dictionary, long⟩, fun _ => ⟨f, failed⟩⟩, fun l loaded => ?_⟩
      rw [failed] at loaded
      cases loaded
  · have none (entries : List (Key × Value)) : ¬ h.Dictionary data entries := fun dictionary => by
      rw [dictionary.isDictionary] at other
      cases other
    by_cases null : data = .null
    · subst null
      refine ⟨⟨nofun, fun ⟨es, same, _⟩ => absurd same (none es)⟩, ?_⟩
      rintro l loaded
      cases loaded
      exact ⟨by simp, fun _ => ⟨rfl, rfl⟩, fun es same => absurd same (none es)⟩
    · have given : (data == .null) = false := by simpa using null
      simp only [Document.load, given, other, Bool.not_false, Bool.false_eq_true, if_false, if_true]
      refine ⟨⟨nofun, fun ⟨es, same, _⟩ => absurd same (none es)⟩, ?_⟩
      rintro l loaded
      cases loaded
      exact ⟨by simp, fun same => absurd same null, fun es same => absurd same (none es)⟩

/-- A document with a trace section, in which one level is listed and another one is null. -/
def sectioned : Heap where
  classes := Standard.classes Sample.classes
  objects := #[
    { cls := "dict", body := .mapping .dict [(.text "tests", .text "fe"), (.text "facets", .null)] },
    { cls := "dict", body := .mapping .dict
        [(.text "trace", .ref 0), (.text "show_diff", .null), (.text "line_length", .int 80)] }]

/-- The document is loaded, and its options are what it says. -/
theorem load_parsed_sections : sectioned.Parsed (.ref 1) ∧
    (∀ entries, sectioned.Dictionary (.ref 1) entries →
      sectioned.Parsed (field entries "trace")) ∧
    ∃ l o, Document.load sectioned (.ref 1) "yaml" = .ok l ∧ l.options = some o ∧
      sectioned.Describes
        [(.text "trace", .ref 0), (.text "show_diff", .null), (.text "line_length", .int 80)] o := by
  have texts (names : List (String × Value)) :
      ∀ e ∈ names.map fun e => (Key.text e.1, e.2), ∃ k, e.1 = .plain k ∧ k.IsPlain := by
    intro e inside
    obtain ⟨⟨name, v⟩, _, rfl⟩ := List.mem_map.mp inside
    exact ⟨.text name, rfl, fun a same => Value.noConfusion same⟩
  have whole : sectioned.Dictionary (.ref 1)
      [(.text "trace", .ref 0), (.text "show_diff", .null), (.text "line_length", .int 80)] :=
    ⟨⟨1, rfl, rfl, rfl⟩,
      texts [("trace", .ref 0), ("show_diff", .null), ("line_length", .int 80)]⟩
  have inner : sectioned.Dictionary (.ref 0)
      [(.text "tests", .text "fe"), (.text "facets", .null)] :=
    ⟨⟨0, rfl, rfl, rfl⟩, texts [("tests", .text "fe"), ("facets", .null)]⟩
  have parsed : sectioned.Parsed (.ref 1) := by
    rintro a kind entries shape
    cases shape
    exact whole
  have nested (entries : List (Key × Value)) (dictionary : sectioned.Dictionary (.ref 1) entries) :
      sectioned.Parsed (field entries "trace") := by
    obtain ⟨_, shape⟩ := dictionary.shape
    cases shape
    rintro a kind entries shape
    cases shape
    exact inner
  have sound : (Document.load sectioned (.ref 1) "yaml").toOption.map (·.problems) = some [] := by
    decide +kernel
  obtain ⟨_, loaded⟩ := load_parsed sectioned (.ref 1) "yaml" parsed nested
  cases load : Document.load sectioned (.ref 1) "yaml" with
  | error f =>
      rw [load] at sound
      cases sound
  | ok l =>
      rw [load] at sound
      obtain ⟨_, _, describes⟩ := loaded l load
      obtain ⟨o, options, described⟩ := describes _ whole (Option.some.inj sound)
      exact ⟨parsed, nested, l, o, rfl, options, described⟩

theorem not_isWritable_power :
    Integer.isWritable (Nat.pow 10 Integer.digitLimit : Nat) = false := by
  unfold Integer.isWritable
  rw [Int.natAbs_natCast]
  exact decide_eq_false (Nat.lt_irrefl _)

/-- An integer with more digits than can be written is no field, but cannot be reported. -/
theorem load_misses_long_key : ¬ ∀ (h : Heap) (data : Value) (source : String), h.Parsed data →
    (∀ entries, h.Dictionary data entries → h.Parsed (field entries "trace")) →
    ∃ l, Document.load h data source = .ok l := by
  intro claim
  let entries : List (Key × Value) := [(.plain (.int (Nat.pow 10 Integer.digitLimit : Nat)), .int 1)]
  let h : Heap :=
    { classes := Standard.classes Sample.classes
      objects := #[{ cls := "dict", body := .mapping .dict entries }] }
  have dictionary : h.Dictionary (.ref 0) entries :=
    ⟨⟨0, rfl, rfl, rfl⟩, List.forall_mem_singleton.mpr ⟨_, rfl, nofun⟩⟩
  have parsed : h.Parsed (.ref 0) := by
    rintro a kind es shape
    cases shape
    exact dictionary
  have nested (es : List (Key × Value)) (same : h.Dictionary (.ref 0) es) :
      h.Parsed (field es "trace") := by
    obtain ⟨_, shape⟩ := same.shape
    cases shape
    exact nofun
  have long : h.Overlong entries :=
    .inl ⟨_, List.mem_singleton_self _, _, rfl,
      Bool.eq_false_iff.mp not_isWritable_power⟩
  obtain ⟨l, loaded⟩ := claim h (.ref 0) "yaml" parsed nested
  rcases dictionary.load (nested entries dictionary) "yaml" with ⟨fits, _⟩ | ⟨_, f, failed⟩
  · exact fits long
  · rw [loaded] at failed
    cases failed

end Heap

end Assay
