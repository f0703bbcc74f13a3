import ContextPolicy.Proofs.Condition.Blocks
import ContextPolicy.Proofs.Document.ReadBack
import ContextPolicy.Proofs.Prefixes.Built
import ContextPolicy.Proofs.Turtle.Guards
import ContextPolicy.Settings

/-! What accepted settings hold.

The reader of settings checks texts character by character. `Accepted` says what a session
can rely on behind it, in terms of the grammar that texts are written in: the root and the
namespaces can stand between angle brackets, and each keyword is bound to a predicate and a
value that have a written form. Each reading step keeps this (`accepted_of_ofJson`). What an
IRI resolves to is not checked, nor does the reader know the characters of the grammar's
names. -/
namespace ContextPolicy

/-! ### Bindings -/

/-- A predicate and a value that have a written form. -/
structure Binding.Readable (b : Binding) : Prop where
  predicate : Turtle.IsReference b.predicate.toList
  value : b.value.Readable some

namespace Settings
variable {p : Prefixes}

/-- A literal gets one tag at most, so the check looks at all that is written of it. -/
theorem value_readable {entry : BindingEntry} {v : Term} (h : value p entry = .ok v)
    (hv : v.writable) : v.Readable some := by
  unfold value at h
  split at h <;> cases h
  · exact ⟨Iri.isReference_of_writable hv, rfl⟩
  · trivial
  · exact ⟨Iri.isReference_of_writable hv, rfl⟩
  · exact Lang.isTag_of_writable hv

theorem binding_readable {entry : BindingEntry} {b : Binding} (h : binding p entry = .ok b) :
    b.Readable := by
  rw [binding] at h
  cases hpredicate : Iri.writable (expand p entry.predicate) with
  | false =>
    simp only [hpredicate] at h
    cases h
  | true =>
    simp only [hpredicate] at h
    obtain ⟨v, hvalue, h⟩ := bind_eq_ok.mp h
    cases hv : v.writable with
    | false =>
      simp only [hv] at h
      cases h
    | true =>
      simp only [hv] at h
      cases h
      exact ⟨Iri.isReference_of_writable hpredicate, value_readable hvalue hv⟩

end Settings

/-! ### Tables -/

def Vocabulary.Readable (v : Vocabulary) : Prop :=
  ∀ d word b, v.lookup d word = some b → b.Readable

namespace Settings

/-- A keyword is added for a dimension that takes any, with its binding. -/
theorem addKeyword_ok {p : Prefixes} {name : String} {v w : Vocabulary}
    {entry : String × BindingEntry} (h : addKeyword p name v entry = .ok w) :
    ∃ d b, d.name = name ∧ binding p entry.2 = .ok b ∧ v.insert? d entry.1 b = some w := by
  unfold addKeyword at h
  split at h
  · cases h
  · next d hd =>
    split at h
    · cases h
    · next b hb =>
      split at h
      · cases h
      · next hinsert =>
        cases h
        exact ⟨d, b, Dimension.name_of_ofName? hd, hb, hinsert⟩

theorem addKeyword_readable {p : Prefixes} {dimension : String} {v w : Vocabulary}
    {entry : String × BindingEntry} (hv : v.Readable)
    (h : addKeyword p dimension v entry = .ok w) : w.Readable := by
  obtain ⟨d, b, -, hb, hinsert⟩ := addKeyword_ok h
  intro d' word b' hlookup
  rw [Vocabulary.lookup_of_insert? hinsert] at hlookup
  split_ifs at hlookup with hsame
  · cases hlookup
    exact binding_readable hb
  · exact hv d' word b' hlookup

theorem lookup_empty (d : Dimension) (word : String) : (∅ : Vocabulary).lookup d word = none := by
  cases d <;> exact Std.ExtTreeMap.getElem?_empty

theorem readVocabulary_readable {p : Prefixes}
    {entries : List (String × List (String × BindingEntry))} {v : Vocabulary}
    (h : readVocabulary p entries = .ok v) : v.Readable := by
  refine foldlM_keeps (fun v entry w hv hentry => ?_) (fun d word b hnone => ?_) h
  · exact foldlM_keeps (fun _ _ _ => addKeyword_readable) hv hentry
  · rw [lookup_empty] at hnone
    cases hnone

/-! ### Settings -/

structure Accepted (s : Settings) : Prop where
  root : ∃ iri, s.condition = .named iri ∧ Turtle.IsReference iri.toList
  prefixes : s.prefixes.Writable
  vocabulary : s.vocabulary.Readable

/-- What the entries were checked for. -/
theorem ofEntries_ok {e : Entries} {s : Settings} (h : ofEntries e = .ok s) :
    Prefixes.defaults.insertAll e.prefixes = .ok s.prefixes ∧
      (∃ iri, s.condition = .named iri ∧ Iri.writable iri = true) ∧
      readVocabulary s.prefixes e.vocabulary = .ok s.vocabulary := by
  rw [ofEntries] at h
  obtain ⟨dateFormat, -, h⟩ := bind_eq_ok.mp h
  obtain ⟨prefixes, hprefixes, h⟩ := bind_eq_ok.mp h
  have hall : Prefixes.defaults.insertAll e.prefixes = .ok prefixes := by
    cases hinsert : Prefixes.defaults.insertAll e.prefixes with
    | error fault =>
      rw [hinsert] at hprefixes
      cases hprefixes
    | ok p =>
      rw [hinsert] at hprefixes
      cases hprefixes
      rfl
  split at h
  all_goals
    simp only at h
    split_ifs at h with hcondition
    · cases h
    obtain ⟨vocabulary, hvocabulary, h⟩ := bind_eq_ok.mp h
    cases h
    simp only [Bool.not_eq_true', Bool.not_eq_false] at hcondition
    exact ⟨hall, ⟨_, rfl, hcondition⟩, hvocabulary⟩

theorem accepted_of_ofEntries {e : Entries} {s : Settings} (h : ofEntries e = .ok s) :
    s.Accepted := by
  obtain ⟨hprefixes, ⟨iri, hcondition, hwritable⟩, hvocabulary⟩ := ofEntries_ok h
  exact ⟨⟨iri, hcondition, Iri.isReference_of_writable hwritable⟩,
    foldlM_keeps (fun _ _ _ hp => hp.insert) Prefixes.writable_defaults hprefixes,
    readVocabulary_readable hvocabulary⟩

/-- A text is read first and its entries are checked then. -/
theorem ofJson_eq_ok_iff {text : String} {s : Settings} : ofJson text = .ok s ↔
    ∃ e, (Json.read text).bind Entries.ofJson? = some e ∧ ofEntries e = .ok s := by
  rw [ofJson]
  cases (Json.read text).bind Entries.ofJson? with
  | none => simp
  | some e => simp

theorem accepted_of_ofJson {text : String} {s : Settings} (h : ofJson text = .ok s) :
    s.Accepted := by
  obtain ⟨e, -, he⟩ := ofJson_eq_ok_iff.mp h
  exact accepted_of_ofEntries he

/-- The root of a condition is an IRI that can be written. -/
theorem condition_of_ofJson {text : String} {s : Settings} (h : ofJson text = .ok s) :
    ∃ iri, s.condition = .named iri ∧ Iri.writable iri = true := by
  obtain ⟨e, -, he⟩ := ofJson_eq_ok_iff.mp h
  exact (ofEntries_ok he).2.1

end Settings

end ContextPolicy
