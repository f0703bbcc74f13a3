import ContextPolicy.Proofs.RdfXml.ReadBack
import ContextPolicy.TextFormat

/-! Formatters that describe what they are given, and parsers that report it.

What is asked of a formatter is that it takes every statement, and ends with a document in which
each of them is a property of its subject, in runs of the same subject
(`Formatter.Describes`). What is asked of a parser is that it reports the statements of such a
document in their order and with their labels, if they are portable (`Parser.Reports`). Both are
asked about statements. That triples get through is what follows, for triples that are statements
(`Formatter.Describes.write`, `Parser.Reports.read`). The formatter and the parser of this
library do what is asked. -/
namespace ContextPolicy

/-- A triple that is a statement, and a portable one. -/
def Triple.Portable (resolve : List Char → Option (List Char)) (t : Triple) : Prop :=
  ∃ st : RdfXml.Statement, st.toTriple = t ∧ st.Portable resolve

namespace RdfXml

/-! ### Runs -/

theorem flatMap_statements_describe (st : Statement) (ds : List Description) :
    (describe st ds).flatMap Description.statements =
      st :: ds.flatMap Description.statements := by
  cases ds with
  | nil => rfl
  | cons d rest =>
    rw [describe]
    split
    · next h => simp [Description.statements, h]
    · rfl

/-- Putting statements into descriptions keeps them in order. -/
theorem flatMap_statements_descriptions (sts : List Statement) :
    (descriptions sts).flatMap Description.statements = sts := by
  induction sts with
  | nil => rfl
  | cons st rest ih =>
    show (describe st (descriptions rest)).flatMap Description.statements = _
    rw [flatMap_statements_describe, ih]

theorem subject_of_mem_describe {st : Statement} {ds : List Description} {d : Description}
    (h : d ∈ describe st ds) : d.subject = st.subject ∨ ∃ d' ∈ ds, d'.subject = d.subject := by
  cases ds with
  | nil =>
    rw [List.mem_singleton.mp h]
    exact .inl rfl
  | cons e rest =>
    rw [describe] at h
    split at h
    · rcases List.mem_cons.mp h with rfl | h
      · exact .inr ⟨e, List.mem_cons_self, rfl⟩
      · exact .inr ⟨d, List.mem_cons_of_mem e h, rfl⟩
    · rcases List.mem_cons.mp h with rfl | h
      · exact .inl rfl
      · exact .inr ⟨d, h, rfl⟩

/-- No description is of anything else than the subject of a statement. -/
theorem subject_of_mem_descriptions {sts : List Statement} {d : Description}
    (h : d ∈ descriptions sts) : ∃ st ∈ sts, st.subject = d.subject := by
  induction sts generalizing d with
  | nil => cases h
  | cons st rest ih =>
    rcases subject_of_mem_describe h with heq | ⟨d', hd', heq⟩
    · exact ⟨st, List.mem_cons_self, heq.symm⟩
    · obtain ⟨other, hother, hsubject⟩ := ih hd'
      exact ⟨other, List.mem_cons_of_mem st hother, hsubject.trans heq⟩

theorem portable_descriptions {resolve : List Char → Option (List Char)} {sts : List Statement}
    (h : ∀ st ∈ sts, st.Portable resolve) : ∀ d ∈ descriptions sts, d.Portable resolve := by
  intro d hd
  obtain ⟨st, hst, hsubject⟩ := subject_of_mem_descriptions hd
  refine ⟨hsubject ▸ (h st hst).subject, fun other hother => h other ?_⟩
  rw [← flatMap_statements_descriptions sts]
  exact List.mem_flatMap.mpr ⟨d, hd, hother⟩

/-! ### Formatters -/

/-- No operation of a formatter fails, and the document has a property element for each statement
that it was given, in runs of the same subject. `Holds x sts` says that the state `x` is the one
behind the statements `sts`. -/
structure Formatter.Describes (f : Formatter) (Holds : f.State → List Statement → Prop) :
    Prop where
  start : ∃ x, f.start = .ok x ∧ Holds x []
  format : ∀ x sts, Holds x sts → ∀ st, ∃ y, f.format x st = .ok y ∧ Holds y (sts ++ [st])
  finish : ∀ x sts, Holds x sts → f.finish x = .ok (documentText (descriptions sts))

section
variable {f : Formatter} {Holds : f.State → List Statement → Prop}

/-- Triples are given to a formatter one after the other, up to those that are no statements. -/
theorem Formatter.Describes.foldlM (h : f.Describes Holds) {x : f.State} {sts : List Statement}
    (hx : Holds x sts) (ts : List Triple) :
    ∃ y, ts.foldlM f.formatTriple x = .ok y ∧
      Holds y (sts ++ ts.filterMap Statement.ofTriple?) := by
  induction ts generalizing x sts with
  | nil => exact ⟨x, rfl, (List.append_nil sts).symm ▸ hx⟩
  | cons t rest ih =>
    rw [List.foldlM_cons, Formatter.formatTriple]
    cases hst : Statement.ofTriple? t with
    | none =>
      rw [List.filterMap_cons_none hst]
      exact ih hx
    | some st =>
      obtain ⟨y, hformat, hy⟩ := h.format x sts hx st
      obtain ⟨z, hrest, hz⟩ := ih hy
      rw [List.append_assoc, List.singleton_append] at hz
      rw [List.filterMap_cons_some hst]
      refine ⟨z, ?_, hz⟩
      simp only [hformat]
      exact hrest

/-- Triples are written to the document of those that are statements. -/
theorem Formatter.Describes.write (h : f.Describes Holds) (ts : List Triple) :
    f.write ts = .ok (document ts) := by
  obtain ⟨x, hstart, hx⟩ := h.start
  obtain ⟨y, hfold, hy⟩ := h.foldlM hx ts
  simp only [Formatter.write, hstart, hfold, bind, Except.bind]
  exact h.finish y _ hy

end

theorem describes_plain : Formatter.plain.Describes fun x sts => x = sts where
  start := ⟨[], rfl, rfl⟩
  format := by
    rintro (x : List Statement) _ rfl st
    exact ⟨x ++ [st], rfl, rfl⟩
  finish := by
    rintro x _ rfl
    rfl

/-! ### Parsers -/

/-- A parser reports the statements of a document in their order, if they are portable. -/
def Parser.Reports (p : Parser) (resolve : List Char → Option (List Char)) (base : String) :
    Prop :=
  ∀ ds : List Description, (∀ d ∈ ds, d.Portable resolve) →
    p base (documentText ds) = .ok (ds.flatMap Description.statements)

variable {resolve : List Char → Option (List Char)} {ts : List Triple}

/-- Portable triples are their statements. -/
theorem statements_of_portable (h : ∀ t ∈ ts, t.Portable resolve) :
    (ts.filterMap Statement.ofTriple?).map Statement.toTriple = ts ∧
      ∀ st ∈ ts.filterMap Statement.ofTriple?, st.Portable resolve := by
  induction ts with
  | nil => exact ⟨rfl, List.forall_mem_nil _⟩
  | cons t rest ih =>
    obtain ⟨⟨st, rfl, hst⟩, hrest⟩ := List.forall_mem_cons.mp h
    obtain ⟨hmap, hportable⟩ := ih hrest
    rw [List.filterMap_cons_some st.ofTriple?_toTriple, List.map_cons, hmap]
    exact ⟨rfl, List.forall_mem_cons.mpr ⟨hst, hportable⟩⟩

/-- The document of portable triples is read as these triples. -/
theorem Parser.Reports.read {p : Parser} {base : String} (hp : p.Reports resolve base)
    (h : ∀ t ∈ ts, t.Portable resolve) : p.read base (document ts) = .ok ts := by
  obtain ⟨hmap, hportable⟩ := statements_of_portable h
  rw [Parser.read, document, hp _ (portable_descriptions hportable),
    flatMap_statements_descriptions]
  exact congrArg Except.ok hmap

theorem reports_plain {base : String} {b : Iri.Base}
    (hbase : Iri.Base.ofText base.toList = some b) : Parser.plain.Reports b.resolve base := by
  intro ds h
  have hsome : Statement.ofTriple? ∘ Statement.toTriple = some :=
    funext Statement.ofTriple?_toTriple
  rw [Parser.plain, read_documentText hbase h]
  simp only [List.filterMap_map, hsome, List.filterMap_some]

end RdfXml

end ContextPolicy
