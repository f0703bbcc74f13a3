import ContextPolicy.Proofs.Document.ReadBack
import ContextPolicy.Proofs.Turtle.Guards

/-! What passes the guards is written in the grammar, but for names that it does not have.

A literal is written without a datatype that its language hides. Apart from this, each term
that passes its guard is written as the token that stands for it, unless it is a blank node
with a label that is not spellable: then no term of the grammar is written so
(`Term.termText_iff_spellable`). The lines of triples and of prefix declarations are put
together from these tokens. -/
namespace ContextPolicy

open Turtle

/-! ### Terms -/

namespace Term

/-- The term as it is written: a literal without a datatype that its language hides. -/
def withoutHidden : Term → Term
  | literal value (some _) (some lang) => literal value none (some lang)
  | t => t

theorem written_withoutHidden (t : Term) : t.withoutHidden.written = t.written := by
  unfold withoutHidden
  split <;> rfl

theorem isLiteral_withoutHidden (t : Term) : t.withoutHidden.isLiteral = t.isLiteral := by
  unfold withoutHidden
  split <;> rfl

theorem withoutHidden_eq_self_iff (t : Term) :
    t.withoutHidden = t ↔ t.datatype? = none ∨ t.lang? = none := by
  match t with
  | named iri | blank label => simp [withoutHidden, datatype?]
  | literal value none lang => simp [withoutHidden, datatype?]
  | literal value (some datatype) none => simp [withoutHidden, lang?]
  | literal value (some datatype) (some lang) => simp [withoutHidden, datatype?, lang?]

theorem readable_withoutHidden {t : Term} (h : t.writable = true)
    (hlabel : ∀ label, t = .blank label → Spellable label.toList) :
    t.withoutHidden.Readable some := by
  match t with
  | named iri => exact ⟨Iri.isReference_of_writable h, rfl⟩
  | blank label => exact (Label.isLabel_iff_spellable h).mpr (hlabel label rfl)
  | literal value none none => trivial
  | literal value (some datatype) none => exact ⟨Iri.isReference_of_writable h, rfl⟩
  | literal value none (some lang) => exact Lang.isTag_of_writable h
  | literal value (some datatype) (some lang) => exact Lang.isTag_of_writable h

theorem termText_withoutHidden {t : Term} (h : t.writable = true)
    (hlabel : ∀ label, t = .blank label → Spellable label.toList) :
    TermText some t.written t.withoutHidden := by
  rw [← written_withoutHidden]
  exact (readable_withoutHidden h hlabel).termText

theorem literalText_withoutHidden {t : Term} (h : t.writable = true)
    (hliteral : t.isLiteral = true) : TermText some t.written t.withoutHidden := by
  refine termText_withoutHidden h fun label hlabel => ?_
  rw [hlabel] at hliteral
  cases hliteral

theorem isLabel_of_termText {resolve : List Char → Option (List Char)} {cs : List Char} {t : Term}
    (h : TermText resolve ('_' :: ':' :: cs) t) : IsLabel cs := by
  generalize htext : '_' :: ':' :: cs = text at h
  cases h with
  | iri h =>
    cases h
    cases htext
  | label h =>
    cases htext
    exact h
  | plain h | tagged h htag | typed h hdatatype =>
    obtain ⟨more, rfl, -⟩ := h.quotedToken
    cases htext

/-- Which terms that pass the guards are written as terms of the grammar. -/
theorem termText_iff_spellable {t : Term} (h : t.writable = true) :
    (∃ u, TermText some t.written u) ↔ ∀ label, t = .blank label → Spellable label.toList := by
  constructor
  · rintro ⟨u, hu⟩ label rfl
    exact (Label.isLabel_iff_spellable h).mp (isLabel_of_termText hu)
  · exact fun hlabel => ⟨t.withoutHidden, termText_withoutHidden h hlabel⟩

end Term

/-! ### Lines -/

theorem Triple.written_withoutHidden (t : Triple) :
    (t.mapNodes Term.withoutHidden).written = t.written := by
  simp only [written, mapNodes, Term.written_withoutHidden]

theorem Triple.derives_line {t : Triple} (h : t.Valid)
    (hlabels : ∀ x ∈ [t.subject, t.object], ∀ label, x = .blank label → Spellable label.toList) :
    Derives some t.line [t.mapNodes Term.withoutHidden] := by
  obtain ⟨hnode, hsubject, hpredicate, hobject⟩ := h
  rw [List.forall_mem_cons, List.forall_mem_singleton] at hlabels
  have hreadable : (t.mapNodes Term.withoutHidden).Readable some :=
    { node := by
        rw [← hnode]
        exact Term.isLiteral_withoutHidden _
      subject := Term.readable_withoutHidden hsubject hlabels.1
      predicate := ⟨Iri.isReference_of_writable hpredicate, rfl⟩
      object := Term.readable_withoutHidden hobject hlabels.2 }
  have hstatement := Derives.statement hreadable.statement isBlank_feed .nil
  rwa [written_withoutHidden, List.append_nil] at hstatement

theorem Prefixes.declaration_derives_of_insert {p q : Prefixes} {name space : String}
    (h : p.insert name space = .ok q) (hdata : isBookkeeping name = false)
    (hname : Spellable name.toList) : Derives some (Document.declaration name space) [] := by
  obtain ⟨hwritable, hspace⟩ := (isWritable_iff hdata).mp (insert_ok h).1
  have hdeclarable : Declarable some name space :=
    { name := (PrefixName.isPrefixName_iff_spellable hwritable).mpr hname
      reference := Iri.isReference_of_writable hspace
      resolves := rfl }
  have hderives := Document.declaration_derives hdeclarable .nil
  rwa [List.append_nil] at hderives

/-! ### All guards -/

/-- The guards of tags and references agree with the grammar. So do those of labels and prefix
names on what is spellable, and nothing else that they let through is in the grammar. Up to
this, a triple that is accepted and a prefix that is added are written as lines of the
grammar. -/
theorem guards_derive (text : String) :
    (Label.writable text = true → (IsLabel text.toList ↔ Spellable text.toList)) ∧
    (PrefixName.writable text = true →
      (text = "" ∨ IsPrefixName text.toList ↔ Spellable text.toList)) ∧
    (Lang.writable text = true ↔ IsTag text.toList) ∧
    (Iri.writable text = true ↔ text ≠ "" ∧ ∀ c ∈ text.toList, 0x20 < c.toNat ∧
      c.toNat ∉ [0x3c, 0x3e, 0x22, 0x7b, 0x7d, 0x7c, 0x5e, 0x60, 0x5c]) ∧
    (∀ t : Term, t.writable = true → ((∃ u, TermText some t.written u) ↔
      ∀ label, t = .blank label → Spellable label.toList)) ∧
    (∀ subject predicate object t, Triple.ofTerms subject predicate object = .ok t →
      (∀ x ∈ [t.subject, t.object], ∀ label, x = .blank label → Spellable label.toList) →
        Derives some t.line [t.mapNodes Term.withoutHidden]) ∧
    ∀ (p q : Prefixes) space, p.insert text space = .ok q →
      Prefixes.isBookkeeping text = false → Spellable text.toList →
        Derives some (Document.declaration text space) [] := by
  refine ⟨fun h => Label.isLabel_iff_spellable h,
    fun h => PrefixName.isPrefixName_iff_spellable h, Lang.writable_iff, ?_,
    fun t h => Term.termText_iff_spellable h,
    fun subject predicate object t h hlabels =>
      Triple.derives_line (Triple.valid_of_ofTerms h) hlabels,
    fun p q space h hdata hname => Prefixes.declaration_derives_of_insert h hdata hname⟩
  rw [Iri.writable_iff]
  refine and_congr_right fun _ => forall₂_congr fun c _ => ?_
  rw [Bool.eq_false_iff, Ne, Iri.forbidden_iff, not_or, Nat.not_le]

/-- A label with a letter beyond ASCII and a dot inside, and a prefix name with a hyphen. -/
theorem guards_derive_umlaut :
    Spellable "gr\u00f6\u00dfe.1".toList ∧ IsLabel "gr\u00f6\u00dfe.1".toList ∧
      IsPrefixName "gr\u00f6-e".toList := by
  have hlabel : Spellable "gr\u00f6\u00dfe.1".toList := by decide
  have hname := ((guards_derive "gr\u00f6-e").2.1 (by decide +kernel)).mpr (by decide)
  exact ⟨hlabel, ((guards_derive _).1 (by decide +kernel)).mpr hlabel,
    hname.resolve_left (by decide)⟩

/-- The ordinal sign passes as a label and as the name of a prefix, but is neither in the
grammar. A triple with it as the label of its subject is accepted. -/
theorem guards_derive_ordinal :
    Label.writable "\u00aa" = true ∧ ¬ IsLabel "\u00aa".toList ∧
    PrefixName.writable "\u00aa" = true ∧ ¬ ("\u00aa" = "" ∨ IsPrefixName "\u00aa".toList) ∧
    Triple.ofTerms (.blank "\u00aa") (.named "urn:p") (.named "urn:o") =
      .ok ⟨.blank "\u00aa", "urn:p", .named "urn:o"⟩ ∧
    ¬ ∃ u, TermText some (Term.blank "\u00aa").written u := by
  have hlabel : Label.writable "\u00aa" = true := by decide +kernel
  have hstray : ¬ Spellable "\u00aa".toList := by decide
  have hterm : (Term.blank "\u00aa").writable = true := hlabel
  refine ⟨hlabel, (Label.isLabel_iff_spellable hlabel).not.mpr hstray, by decide +kernel,
    by decide, by decide +kernel, fun htext => ?_⟩
  exact hstray ((Term.termText_iff_spellable hterm).mp htext _ rfl)

end ContextPolicy
