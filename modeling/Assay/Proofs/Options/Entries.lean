import Assay.Options.Document

/-! # Dictionaries with plain keys

What a parser makes of a document are dictionaries whose keys are plain data.  A field of one is
found under its name, and every key can be written, unless it is an integer that is too long.
-/

namespace Assay

/-- Whether a value is no object. -/
def Value.IsPlain (v : Value) : Prop := ∀ a, v ≠ .ref a

/-- An opinion on whether a value reads as a text.  There is none only where it reads as no text. -/
def Value.Judges (v : Value) (s : String) (opinion : Option Bool) : Prop :=
  opinion = some (v.text? == some s) ∨ opinion = none ∧ v.text? = none

theorem Value.judges_left (v : Value) (s : String) : v.Judges s (v.plainOpinion (.text s)) := by
  cases v with
  | text t => exact .inl (by simp [plainOpinion, int?, text?])
  | member m =>
      rcases m with ⟨cls, name, payload, transparent⟩
      cases transparent <;> cases payload <;> simp [Judges, plainOpinion, int?, text?]
  | _ => exact .inr (by simp [plainOpinion, int?, text?])

theorem Value.judges_right (v : Value) (s : String) : v.Judges s ((text s).plainOpinion v) := by
  cases v with
  | text t => exact .inl (by simp [plainOpinion, int?, text?, BEq.comm])
  | member m =>
      rcases m with ⟨cls, name, payload, transparent⟩
      cases transparent <;> cases payload <;> simp [Judges, plainOpinion, int?, text?, BEq.comm]
  | _ => exact .inr (by simp [plainOpinion, int?, text?])

namespace Heap

variable {h : Heap} {v : Value} {s : String}

/-- Whether a plain value is equal to a text is whether it reads as that text. -/
theorem equal_plain_text (plain : v.IsPlain) : h.equal v (.text s) = .ok (v.text? == some s) := by
  have left (eq : Comparison) : h.opinion eq v (.text s) = .ok (v.plainOpinion (.text s)) := by
    cases v with
    | ref a => exact absurd rfl (plain a)
    | _ => rfl
  have right (eq : Comparison) : h.opinion eq (.text s) v = .ok ((Value.text s).plainOpinion v) :=
    rfl
  have last (reads : v.text? = none) : (v == .text s) = (v.text? == some s) := by
    cases v <;> simp_all [Value.text?]
  unfold equal equalWithin
  by_cases first : h.asksRightFirst v (.text s)
  · simp only [first, if_true, right]
    rcases v.judges_right s with told | ⟨told, reads⟩
    · simp only [told]
    · rcases v.judges_left s with told' | ⟨told', _⟩ <;> simp only [told, left, told', last reads]
  · simp only [first, Bool.false_eq_true, if_false, left]
    rcases v.judges_left s with told | ⟨told, reads⟩
    · simp only [told]
    · rcases v.judges_right s with told' | ⟨told', _⟩ <;> simp only [told, right, told', last reads]

theorem digest_of_text (reads : v.text? = some s) : v.digest = .ofText s := by
  cases v with
  | text t => simp_all [Value.text?, Value.digest]
  | member m =>
      rcases m with ⟨cls, name, payload, transparent⟩
      cases transparent <;> cases payload <;> simp_all [Value.text?, Value.digest]
  | _ => simp [Value.text?] at reads

theorem isFor_plain (plain : v.IsPlain) :
    (Key.text s).isFor h.equal (.plain v) = .ok ((Key.plain v).isText s) := by
  have asked : sameOr h.equal v (.text s) = .ok (v.text? == some s) := by
    unfold sameOr
    by_cases same : v = .text s
    · simp [same, Value.text?]
    · simp [same, equal_plain_text plain]
  unfold Key.isFor
  by_cases reads : v.text? = some s
  · have digests : v.digest = (Value.text s).digest := digest_of_text reads
    simp [Key.plain, Key.text, digests, asked, Key.isText]
  · have answer : (Key.plain v).isText s = false := by simpa [Key.isText, Key.plain] using reads
    have refused : (v.text? == some s) = false := by simpa using reads
    split
    · simp only [Key.plain, Key.text, asked, refused, Key.isText]
    · rw [answer]

/-- What cannot be written is an integer with too many digits. -/
theorem display_plain (plain : v.IsPlain) : (∃ text, h.display v = .ok text) ∨
    ∃ n, v = .int n ∧ ¬ Integer.isWritable n ∧ h.display v = .error (.tooManyDigits none) := by
  unfold display displayWithin
  cases v with
  | ref a => exact absurd rfl (plain a)
  | int n =>
      have written : h.repr (.int n) = writeInteger n := rfl
      by_cases writable : Integer.isWritable n
      · exact .inl ⟨toString n, by simp [written, writeInteger, writable]⟩
      · exact .inr ⟨n, rfl, writable, by simp [written, writeInteger, writable]⟩
  | member m => exact .inl (by dsimp only; split <;> exact ⟨_, rfl⟩)
  | _ => exact .inl ⟨_, rfl⟩

/-! ## Dictionaries -/

/-- A dictionary with the given entries, whose keys are plain data and filed as such. -/
structure Dictionary (h : Heap) (v : Value) (entries : List (Key × Value)) : Prop where
  object : ∃ a, v = .ref a ∧ (h.object a).cls = "dict" ∧ (h.object a).body = .mapping .dict entries
  keys : ∀ e ∈ entries, ∃ k, e.1 = .plain k ∧ k.IsPlain

end Heap

/-- What a dictionary says about a field, if it has one of this name. -/
def stated (entries : List (Key × Value)) (name : String) : Option Value :=
  (entries.find? (·.1.isText name)).map (·.2)

namespace Heap

variable {h : Heap} {v : Value} {entries : List (Key × Value)}

theorem find?_plain (keys : ∀ e ∈ entries, ∃ k, e.1 = .plain k ∧ k.IsPlain) (name : String) :
    h.find? (.text name) entries = .ok (stated entries name) := by
  have named : h.key (.text name) = .ok (.text name) := rfl
  unfold find? under?
  rw [named]
  dsimp only
  induction entries with
  | nil => rfl
  | cons e rest ih =>
      obtain ⟨k, x⟩ := e
      obtain ⟨u, rfl, plain⟩ := keys (k, x) List.mem_cons_self
      have later := ih fun e inside => keys e (List.mem_cons_of_mem _ inside)
      cases here : (Key.plain u).isText name with
      | true => simp [Entries.search, isFor_plain plain, here, stated]
      | false =>
          simp only [Entries.search, isFor_plain plain, here, later]
          simp [stated, here]

namespace Dictionary

theorem get (dictionary : h.Dictionary v entries) (name : String) :
    Document.get h v name = .ok ((stated entries name).getD .null) := by
  obtain ⟨a, rfl, _, body⟩ := dictionary.object
  have shape : h.shape (.ref a) = .mapping a .dict entries := by simp only [Heap.shape, body]
  simp only [Document.get, shape, find?_plain dictionary.keys, Except.map]

theorem isDictionary (dictionary : h.Dictionary v entries) : Document.isDictionary h v := by
  obtain ⟨a, rfl, _, body⟩ := dictionary.object
  simp only [Document.isDictionary, body]

theorem asMembers (dictionary : h.Dictionary v entries) :
    h.asMembers v = .ok (entries.map (·.1)) := by
  obtain ⟨a, rfl, cls, body⟩ := dictionary.object
  rcases object : h.object a with ⟨c, b, attrs, slots⟩
  rw [object] at cls body
  subst cls body
  simp only [Heap.asMembers, object]

theorem truth (dictionary : h.Dictionary v entries) : h.truth v = !entries.isEmpty := by
  obtain ⟨a, rfl, _, body⟩ := dictionary.object
  simp only [Heap.truth, body]

end Dictionary

end Heap

end Assay
