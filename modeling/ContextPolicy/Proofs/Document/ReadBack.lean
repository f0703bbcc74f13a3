import Mathlib.Data.List.Forall2
import ContextPolicy.Document
import ContextPolicy.Proofs.Graph.Entries
import ContextPolicy.Proofs.Prefixes.Built
import ContextPolicy.Proofs.Turtle.Accepting

/-! The canonical text is read as the triples that it was written from.

The written form of each term derives the term, however its value has to be quoted, and so
the whole text derives the triples in their order. Any reader that accepts the grammar
therefore reads them back, once the graph holds only what the grammar has: `Triple.Readable`
and `Prefixes.Declarable` say what that is. -/
namespace ContextPolicy

open Turtle

/-! ### What the grammar has -/

section
variable (resolve : List Char → Option (List Char))

/-- An IRI that can stand between angle brackets, and that a reader takes as it stands. -/
def Iri.Readable (iri : String) : Prop :=
  IsReference iri.toList ∧ resolve iri.toList = some iri.toList

instance (iri : String) : Decidable (Iri.Readable resolve iri) :=
  inferInstanceAs (Decidable (_ ∧ _))

def Term.Readable : Term → Prop
  | .named iri => Iri.Readable resolve iri
  | .blank label => IsLabel label.toList
  | .literal _ none none => True
  | .literal _ (some datatype) none => Iri.Readable resolve datatype
  | .literal _ none (some lang) => IsTag lang.toList
  | .literal _ (some _) (some _) => False

structure Triple.Readable (t : Triple) : Prop where
  node : t.subject.isLiteral = false
  subject : t.subject.Readable resolve
  predicate : Iri.Readable resolve t.predicate
  object : t.object.Readable resolve

/-- A name and a namespace that a directive can hold. -/
structure Prefixes.Declarable (name space : String) : Prop where
  name : name = "" ∨ IsPrefixName name.toList
  reference : IsReference space.toList
  resolves : (resolve space.toList).isSome

end

/-! ### Terms -/

variable {resolve : List Char → Option (List Char)}

/-- Escapes stand for the characters that they were written for. -/
theorem Term.escape_quoted (long : Bool) (value : List Char) :
    Quoted long (escape long value) value := by
  induction value with
  | nil => exact .nil
  | cons c value ih =>
    rw [escape, List.flatMap_cons, escapeChar]
    split_ifs with hbackslash hmark hfeed hlong hreturn htab
    · subst hbackslash
      exact .escape (by decide) ih
    · subst hmark
      exact .escape (by decide) ih
    · subst hfeed
      exact .char (by decide) (by decide) (.inl hlong) ih
    · subst hfeed
      exact .escape (by decide) ih
    · subst hreturn
      exact .escape (by decide) ih
    · subst htab
      exact .escape (by decide) ih
    · exact .char hmark hbackslash (.inr ⟨hfeed, hreturn⟩) ih

theorem Term.writtenValue_stringText (value : List Char) :
    StringText (writtenValue value) value := by
  unfold writtenValue quotes
  split_ifs with hfeed
  · rw [decide_eq_true hfeed]
    exact .long (escape_quoted true value)
  · rw [decide_eq_false hfeed]
    exact .short (escape_quoted false value)

theorem Iri.Readable.iriText {iri : String} (h : Iri.Readable resolve iri) :
    IriText resolve ('<' :: iri.toList ++ ['>']) iri := by
  have htext := IriText.reference h.1 h.2
  rwa [String.ofList_toList] at htext

theorem Term.Readable.termText {t : Term} (h : t.Readable resolve) :
    TermText resolve t.written t := by
  match t, h with
  | .named iri, h => exact .iri h.iriText
  | .blank label, h =>
    have htext : TermText resolve _ _ := .label h
    rwa [String.ofList_toList] at htext
  | .literal value none none, _ =>
    have htext : TermText resolve _ _ := .plain (writtenValue_stringText value.toList)
    rw [String.ofList_toList] at htext
    rwa [written, writtenTag, List.append_nil]
  | .literal value (some datatype) none, h =>
    have htext : TermText resolve _ _ :=
      .typed (writtenValue_stringText value.toList) (Iri.Readable.iriText h)
    rwa [String.ofList_toList] at htext
  | .literal value none (some lang), h =>
    have htext : TermText resolve _ _ := .tagged (writtenValue_stringText value.toList) h
    rwa [String.ofList_toList, String.ofList_toList] at htext

/-! ### Texts -/

theorem isGap_space : IsGap [' '] :=
  ⟨by decide, List.forall_mem_singleton.mpr rfl⟩

/-- The written form of a triple is read as another if the written forms of its terms are
read as the terms of that. -/
theorem Triple.statement_of_texts {t u : Triple}
    (hs : TermText resolve t.subject.written u.subject) (hnode : u.subject.isLiteral = false)
    (hp : IriText resolve ('<' :: t.predicate.toList ++ ['>']) u.predicate)
    (ho : TermText resolve t.object.written u.object) : Statement resolve t.written [u] := by
  have hstatement := Statement.triple hs hnode hp ho isGap_space isGap_space isGap_space
  simpa [Triple.written, Term.written] using hstatement

theorem Triple.Readable.statement {t : Triple} (h : t.Readable resolve) :
    Statement resolve t.written [t] :=
  Triple.statement_of_texts h.subject.termText h.node h.predicate.iriText h.object.termText

theorem Prefixes.Declarable.statement {name space : String}
    (h : Prefixes.Declarable resolve name space) :
    Statement resolve
      ("@prefix ".toList ++ name.toList ++ ": <".toList ++ space.toList ++ "> .".toList) [] := by
  obtain ⟨iri, hiri⟩ := Option.isSome_iff_exists.mp h.resolves
  have hname : name.toList = [] ∨ IsPrefixName name.toList := by
    obtain rfl | hname := h.name
    · exact .inl rfl
    · exact .inr hname
  have hstatement := Statement.directive hname (.reference h.reference hiri) isGap_space
    isGap_space isGap_space
  simpa using hstatement

theorem isBlank_feed : isBlank '\n' = true := by
  decide

namespace Document

theorem lines_derives {ts us : List Triple}
    (h : List.Forall₂ (fun t u => Statement resolve t.written [u]) ts us) :
    Derives resolve (lines ts) us := by
  induction h with
  | nil => exact .nil
  | cons hline _ hrest =>
    rw [lines, List.flatMap_cons, Triple.line, List.append_assoc]
    exact Derives.statement hline isBlank_feed hrest

theorem declaration_derives {name space : String} {cs : List Char} {ts : List Triple}
    (h : Prefixes.Declarable resolve name space) (hcs : Derives resolve cs ts) :
    Derives resolve (declaration name space ++ cs) ts := by
  have hline := Derives.statement h.statement isBlank_feed hcs
  unfold declaration
  simpa using hline

theorem declarations_derives {entries : List (String × String)} {cs : List Char}
    {ts : List Triple} (h : ∀ e ∈ entries, Prefixes.Declarable resolve e.1 e.2)
    (hcs : Derives resolve cs ts) :
    Derives resolve (entries.flatMap (fun (name, space) => declaration name space) ++ cs) ts := by
  induction entries with
  | nil => exact hcs
  | cons e entries ih =>
    have hrest : ∀ d ∈ entries, Prefixes.Declarable resolve d.1 d.2 :=
      fun d hd => h d (List.mem_cons_of_mem e hd)
    rw [List.flatMap_cons, List.append_assoc]
    exact declaration_derives (h e List.mem_cons_self) (ih hrest)

/-- A text whose lines are each read as some triple is read as these triples. -/
theorem written_derives_each {p : Prefixes} {ts us : List Triple}
    (hts : List.Forall₂ (fun t u => Statement resolve t.written [u]) ts us)
    (hp : ∀ e ∈ p.declarations, Prefixes.Declarable resolve e.1 e.2) :
    Derives resolve (written p ts) us := by
  rw [written, declarations, List.append_assoc]
  refine declarations_derives hp ?_
  split
  · exact lines_derives hts
  · exact .blank (by decide) (lines_derives hts)

theorem written_derives {p : Prefixes} {ts : List Triple} (hts : ∀ t ∈ ts, t.Readable resolve)
    (hp : ∀ e ∈ p.declarations, Prefixes.Declarable resolve e.1 e.2) :
    Derives resolve (written p ts) ts :=
  written_derives_each (List.forall₂_same.mpr fun t ht => (hts t ht).statement) hp

end Document

/-! ### Bookkeeping -/

/-- Tables with the same prefixes have the same declarations. -/
theorem Prefixes.declarations_congr {p q : Prefixes}
    (h : ∀ name, isBookkeeping name = false → p.space? name = q.space? name) :
    p.declarations = q.declarations := by
  have : Std.Asymm fun a b : String × String => compare a.1 b.1 = .lt := by
    refine ⟨fun a b hlt hgt => ?_⟩
    rw [Std.OrientedOrd.eq_swap, hgt] at hlt
    cases hlt
  have hascending : ∀ p : Prefixes,
      p.declarations.Pairwise fun a b => compare a.1 b.1 = .lt :=
    fun p => Std.ExtTreeMap.ordered_keys_toList.filter _
  refine (hascending p).eq_of_mem_iff (hascending q) fun e => ?_
  rw [mem_declarations_iff, mem_declarations_iff]
  refine and_congr_left fun hname => ?_
  rw [h e.1 hname]

/-- A graph that the grammar has a text for is read back from its canonical text: as it is
by the reader of this library, and up to a renaming of labels by any reader that accepts
the grammar and resolves references in the same way. Bookkeeping entries are not in the
text. -/
theorem Document.toText_reads_back {base : String} {b : Iri.Base}
    (hbase : Iri.Base.ofText base.toList = some b) {g : Graph} {p : Prefixes}
    (hg : ∀ t ∈ g.triples, t.Readable b.resolve)
    (hp : ∀ e ∈ p.declarations, Prefixes.Declarable b.resolve e.1 e.2) :
    TextFormat.turtle.read base (toText p g.triples) = .ok g.triples ∧
    (∀ read, Accepts b.resolve read → ∃ ρ : String → String, Function.Injective ρ ∧
      read (toText p g.triples) =
        .ok (g.triples.map (Triple.mapNodes (Term.rename ρ)))) ∧
    ∀ q : Prefixes,
      (∀ name, Prefixes.isBookkeeping name = false → p.space? name = q.space? name) →
        toText q g.triples = toText p g.triples := by
  have hderives := written_derives hg hp
  refine ⟨read_of_derives hbase hderives, fun read hread => hread _ _ hderives, fun q hq => ?_⟩
  have hdeclarations := Prefixes.declarations_congr hq
  simp only [toText, written, declarations, hdeclarations]

/-- A value with a line feed, quotation marks and a backslash, twice; and an entry that only
keeps the books, whose namespace no directive could hold. -/
theorem Document.toText_reads_back_repeated :
    let t : Triple := ⟨.blank "a.b", "urn:p", .tagged "two\n\"lines\"\\" "en-GB"⟩
    let g : Graph := .ofTriples [t, ⟨.named "urn:s", "urn:p", .typed "" "urn:t#v"⟩, t]
    let p : Prefixes := ⟨.ofList [("ex", "urn:ex#"), ("@root", "no IRI")]⟩
    let base := Iri.parts "http://localhost/".toList
    Iri.Base.ofText "http://localhost/".toList = some (some base) ∧
    (∀ t ∈ g.triples, t.Readable (Iri.Base.resolve (some base))) ∧
    (∀ e ∈ p.declarations, Prefixes.Declarable (Iri.Base.resolve (some base)) e.1 e.2) ∧
    TextFormat.turtle.read "http://localhost/" (toText p g.triples) = .ok g.triples := by
  intro t g p base
  have hbase : Iri.Base.ofText "http://localhost/".toList = some (some base) := by decide
  have hiri : ∀ iri ∈ ["urn:p", "urn:s", "urn:t#v"],
      Iri.Readable (Iri.Base.resolve (some base)) iri := by
    decide
  have htag : IsTag "en-GB".toList :=
    ⟨"en".toList, ["GB".toList], by decide, by decide, List.all_eq_true.mp rfl,
      List.forall_mem_singleton.mpr ⟨by decide, List.all_eq_true.mp rfl⟩⟩
  have htagged : t.Readable (Iri.Base.resolve (some base)) :=
    ⟨by decide, (by decide : IsName isLabelStart "a.b".toList), hiri _ (by decide), htag⟩
  have htyped : Triple.Readable (Iri.Base.resolve (some base))
      ⟨.named "urn:s", "urn:p", .typed "" "urn:t#v"⟩ :=
    ⟨by decide, hiri "urn:s" (by decide), hiri _ (by decide), hiri "urn:t#v" (by decide)⟩
  have hg : ∀ t ∈ g.triples, t.Readable (Iri.Base.resolve (some base)) := by
    rw [Graph.triples_ofTriples]
    simp only [List.forall_mem_cons, List.not_mem_nil, false_imp_iff, implies_true, and_true]
    exact ⟨htagged, htyped, htagged⟩
  have hdeclarations : p.declarations = [("ex", "urn:ex#")] := by
    decide
  have hp : ∀ e ∈ p.declarations,
      Prefixes.Declarable (Iri.Base.resolve (some base)) e.1 e.2 := by
    rw [hdeclarations, List.forall_mem_singleton]
    exact ⟨.inr (by decide : IsName isPrefixStart "ex".toList), by decide, by decide⟩
  exact ⟨hbase, hg, hp, (toText_reads_back hbase hg hp).1⟩

end ContextPolicy
