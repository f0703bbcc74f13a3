import ContextPolicy.Proofs.Text.Scan
import ContextPolicy.Proofs.Turtle.Literal

/-! What the canonical text determines.

Where a term ends can be told from the text: at the bracket that no IRI holds, at the blank
that no label holds, and for a literal by the rules of its quotes. So of two texts that are
equal, the first terms are written alike and the rest is equal (`Term.written_append_inj`),
and so on through triples, lines and documents. All that a text leaves open is a datatype that
a language hides: triples have one text if they are equal without such. -/
namespace ContextPolicy

open Turtle

/-! ### Terms -/

theorem Iri.bracket_not_mem {iri : String} (h : Iri.writable iri = true) :
    '>' ∉ iri.toList := by
  intro hmem
  have hallowed := Iri.isReference_of_writable h '>' hmem
  cases hallowed

theorem Label.blank_not_mem {label : String} (h : Label.writable label = true) :
    ' ' ∉ label.toList := by
  intro hblank
  have hchar := Label.nameChar_of_mem h hblank
  revert hchar
  decide +kernel

/-- The first character, which tells the kind of a term. -/
def Term.mark : Term → Char
  | named _ => '<'
  | blank _ => '_'
  | literal .. => '"'

theorem Term.written_cons (t : Term) : ∃ cs, t.written = t.mark :: cs := by
  match t with
  | named iri => exact ⟨_, rfl⟩
  | blank label => exact ⟨_, rfl⟩
  | literal value datatype lang =>
    obtain ⟨more, hvalue, -⟩ := (writtenValue_stringText value.toList).quotedToken
    exact ⟨more ++ writtenTag datatype lang, by rw [written, hvalue]; rfl⟩

/-- In front of blanks, terms that are written alike are equal but for hidden datatypes. -/
theorem Term.written_append_inj {t u : Term} {rest behind : List Char} (ht : t.writable = true)
    (hu : u.writable = true) (h : t.written ++ ' ' :: rest = u.written ++ ' ' :: behind) :
    t.withoutHidden = u.withoutHidden ∧ rest = behind := by
  have hmark : t.mark = u.mark := by
    obtain ⟨cs, hcs⟩ := t.written_cons
    obtain ⟨ds, hds⟩ := u.written_cons
    rw [hcs, hds] at h
    exact (List.cons.inj h).1
  cases t <;> cases u
  case named.named iri other =>
    simp only [written, List.cons_append, List.append_assoc, List.cons.injEq, true_and,
      List.nil_append] at h
    obtain ⟨hiri, hbehind⟩ :=
      Text.append_cons_inj (Iri.bracket_not_mem ht) (Iri.bracket_not_mem hu) h
    exact ⟨congrArg named (String.toList_inj.mp hiri), List.tail_eq_of_cons_eq hbehind⟩
  case blank.blank label other =>
    simp only [written, List.cons_append, List.cons.injEq, true_and] at h
    obtain ⟨hlabel, hbehind⟩ :=
      Text.append_cons_inj (Label.blank_not_mem ht) (Label.blank_not_mem hu) h
    exact ⟨congrArg blank (String.toList_inj.mp hlabel), hbehind⟩
  case literal.literal =>
    obtain ⟨-, heq, hbehind⟩ := TermText.literal_unique (literalText_withoutHidden ht rfl)
      (literalText_withoutHidden hu rfl) (isLiteral_withoutHidden _) (isLiteral_withoutHidden _)
      (separated_blank rest) (separated_blank behind) h
    exact ⟨heq, List.tail_eq_of_cons_eq hbehind⟩
  all_goals simp [mark] at hmark

/-! ### Triples -/

theorem Triple.written_append (t : Triple) (rest : List Char) :
    t.written ++ rest = t.subject.written ++ ' ' :: ((Term.named t.predicate).written ++
      ' ' :: (t.object.written ++ ' ' :: '.' :: rest)) := by
  simp only [written, List.append_assoc, List.cons_append, List.nil_append]

/-- Triples that two texts begin with are equal but for hidden datatypes, if the texts are. -/
theorem Triple.written_append_inj {t u : Triple} {rest behind : List Char} (ht : t.Valid)
    (hu : u.Valid) (h : t.written ++ rest = u.written ++ behind) :
    t.mapNodes Term.withoutHidden = u.mapNodes Term.withoutHidden ∧ rest = behind := by
  obtain ⟨-, hsubject, hpredicate, hobject⟩ := ht
  obtain ⟨-, husubject, hupredicate, huobject⟩ := hu
  rw [written_append, written_append] at h
  obtain ⟨hs, h⟩ := Term.written_append_inj hsubject husubject h
  obtain ⟨hp, h⟩ := Term.written_append_inj (t := .named _) (u := .named _) hpredicate
    hupredicate h
  obtain ⟨ho, h⟩ := Term.written_append_inj hobject huobject h
  refine ⟨?_, List.tail_eq_of_cons_eq h⟩
  rw [mapNodes, mapNodes, hs, ho, Term.named.inj hp]

theorem Triple.written_inj {t u : Triple} (ht : t.Valid) (hu : u.Valid) :
    t.written = u.written ↔
      t.mapNodes Term.withoutHidden = u.mapNodes Term.withoutHidden := by
  constructor
  · intro h
    have hend : t.written ++ [] = u.written ++ [] := by rw [h]
    exact (written_append_inj ht hu hend).1
  · intro h
    rw [← written_withoutHidden t, h, written_withoutHidden]

/-! ### Documents -/

namespace Document

theorem lines_withoutHidden (ts : List Triple) :
    lines (ts.map (Triple.mapNodes Term.withoutHidden)) = lines ts := by
  have hline : (fun t : Triple => (t.mapNodes Term.withoutHidden).line) = Triple.line :=
    funext fun t => congrArg (· ++ ['\n']) t.written_withoutHidden
  rw [lines, List.flatMap_map, hline, lines]

theorem lines_cons_ne_nil (t : Triple) (ts : List Triple) : lines (t :: ts) ≠ [] := by
  rw [lines, List.flatMap_cons, Triple.line]
  simp

theorem lines_inj {ts us : List Triple} (hts : ∀ t ∈ ts, t.Valid) (hus : ∀ u ∈ us, u.Valid)
    (h : lines ts = lines us) :
    ts.map (Triple.mapNodes Term.withoutHidden) =
      us.map (Triple.mapNodes Term.withoutHidden) := by
  induction ts generalizing us with
  | nil =>
    cases us with
    | nil => rfl
    | cons u us => exact absurd h.symm (lines_cons_ne_nil u us)
  | cons t ts ih =>
    cases us with
    | nil => exact absurd h (lines_cons_ne_nil t ts)
    | cons u us =>
      rw [List.forall_mem_cons] at hts hus
      simp only [lines, List.flatMap_cons, Triple.line, List.append_assoc] at h
      obtain ⟨hfirst, hrest⟩ := Triple.written_append_inj hts.1 hus.1 h
      rw [List.map_cons, List.map_cons, hfirst, ih hts.2 hus.2 (List.tail_eq_of_cons_eq hrest)]

/-- Whether an empty line stands in front of the lines of the triples can be told from whether
there are any. -/
theorem lines_eq_of_written {p : Prefixes} {ts us : List Triple}
    (h : written p ts = written p us) : lines ts = lines us := by
  simp only [written, List.append_assoc, List.append_cancel_left_eq] at h
  cases ts with
  | nil =>
    cases us with
    | nil => rfl
    | cons u us =>
      rw [List.isEmpty_nil, Bool.or_true, if_pos rfl] at h
      exact absurd (List.append_eq_nil_iff.mp h.symm).2 (lines_cons_ne_nil u us)
  | cons t ts =>
    cases us with
    | nil =>
      rw [List.isEmpty_nil, Bool.or_true, if_pos rfl] at h
      exact absurd (List.append_eq_nil_iff.mp h).2 (lines_cons_ne_nil t ts)
    | cons u us => exact List.append_cancel_left h

theorem written_inj {p : Prefixes} {ts us : List Triple} (hts : ∀ t ∈ ts, t.Valid)
    (hus : ∀ u ∈ us, u.Valid) :
    written p ts = written p us ↔ ts.map (Triple.mapNodes Term.withoutHidden) =
      us.map (Triple.mapNodes Term.withoutHidden) := by
  constructor
  · exact fun h => lines_inj hts hus (lines_eq_of_written h)
  · intro h
    have hlines : lines ts = lines us := by
      rw [← lines_withoutHidden ts, h, lines_withoutHidden]
    have hempty : ts.isEmpty = us.isEmpty := by
      have hmaps := congrArg List.isEmpty h
      rwa [List.isEmpty_map, List.isEmpty_map] at hmaps
    rw [written, written, hlines, hempty]

/-- The text of a triple, its line and, under a table of prefixes, the text of a graph tell
apart all that is accepted, up to datatypes that languages hide: only a literal with both
tags has one. -/
theorem toText_determines {t u : Triple} {g h : Graph} (ht : t.Valid) (hu : u.Valid)
    (hg : ∀ t ∈ g.triples, t.Valid) (hh : ∀ t ∈ h.triples, t.Valid) (p : Prefixes) :
    (t.toText = u.toText ↔
      t.mapNodes Term.withoutHidden = u.mapNodes Term.withoutHidden) ∧
    (t.line = u.line ↔ t.mapNodes Term.withoutHidden = u.mapNodes Term.withoutHidden) ∧
    (toText p g.triples = toText p h.triples ↔
      g.triples.map (Triple.mapNodes Term.withoutHidden) =
        h.triples.map (Triple.mapNodes Term.withoutHidden)) ∧
    ∀ x : Term, x.withoutHidden = x ↔ x.datatype? = none ∨ x.lang? = none := by
  refine ⟨?_, ?_, ?_, Term.withoutHidden_eq_self_iff⟩
  · rw [Triple.toText, Triple.toText, String.ofList_inj, Triple.written_inj ht hu]
  · rw [Triple.line, Triple.line, List.append_left_inj, Triple.written_inj ht hu]
  · rw [toText, toText, String.ofList_inj, written_inj hg hh]

/-- A dot inside a label, and a value that looks like the end of a triple. The second triple
is told apart from the first one, and a graph with both from a graph with one. -/
theorem toText_determines_dots :
    let t : Triple := ⟨.blank "a.b", "urn:p", .plain "x\" ."⟩
    let u : Triple := ⟨.blank "a", "urn:p", .plain "x"⟩
    t.Valid ∧ u.Valid ∧ t.toText ≠ u.toText ∧
      toText .defaults (Graph.ofTriples [t, u]).triples ≠
        toText .defaults (Graph.ofTriples [t]).triples := by
  intro t u
  have ht : t.Valid := by decide +kernel
  have hu : u.Valid := by decide +kernel
  have hg : ∀ x ∈ (Graph.ofTriples [t, u]).triples, x.Valid := by
    rw [Graph.triples_ofTriples, List.forall_mem_cons, List.forall_mem_singleton]
    exact ⟨ht, hu⟩
  have hh : ∀ x ∈ (Graph.ofTriples [t]).triples, x.Valid := by
    rw [Graph.triples_ofTriples, List.forall_mem_singleton]
    exact ht
  obtain ⟨htext, -, hgraph, -⟩ := toText_determines ht hu hg hh .defaults
  refine ⟨ht, hu, htext.not.mpr (by decide), hgraph.not.mpr ?_⟩
  rw [Graph.triples_ofTriples, Graph.triples_ofTriples]
  decide

/-- A literal with a language is accepted with a datatype and without one, and both triples
have one text, alone and in a document. -/
theorem toText_determines_hidden :
    let t : Triple := ⟨.named "urn:s", "urn:p", .literal "x" (some "urn:d") (some "en")⟩
    let u : Triple := ⟨.named "urn:s", "urn:p", .tagged "x" "en"⟩
    Triple.ofTerms t.subject (.named t.predicate) t.object = .ok t ∧
      Triple.ofTerms u.subject (.named u.predicate) u.object = .ok u ∧ t ≠ u ∧
      t.toText = u.toText ∧ t.line = u.line ∧
      toText .defaults (Graph.ofTriples [t]).triples =
        toText .defaults (Graph.ofTriples [u]).triples := by
  decide +kernel

end Document

end ContextPolicy
