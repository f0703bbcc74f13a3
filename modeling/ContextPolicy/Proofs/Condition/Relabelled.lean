import Mathlib.Data.Set.Function
import ContextPolicy.Proofs.Condition.Connected
import ContextPolicy.Proofs.Condition.Related
import ContextPolicy.Proofs.Graph.Renamed
import ContextPolicy.Proofs.Session.Relabel

/-! Blank nodes under other labels.

A label tells its node from the others, and that is all. If the labels of a graph are
replaced by as many others, then the nodes of the graph make a region that looks the same
(`mirrors_of_rename`), so lists, expressions and facts are read as before. Triples lead from
node to node as before (`reaches_rename_iff`), so a node is described under the same indices
(`describe_rename`). -/
namespace ContextPolicy

/-- The label of a term, if it has one, is among some labels. -/
def Term.LabelledIn (labels : Set String) (x : Term) : Prop :=
  ∀ label, x = .blank label → label ∈ labels

theorem Term.rename_injOn {ρ : String → String} {labels : Set String} (hρ : Set.InjOn ρ labels) :
    Set.InjOn (Term.rename ρ) {x | x.LabelledIn labels} := by
  intro x hx y hy heq
  cases x with
  | named iri => exact (Term.rename_eq_named_iff.mp heq.symm).symm
  | blank label =>
    cases y with
    | blank other => exact congrArg _ (hρ (hx label rfl) (hy other rfl) (Term.blank.inj heq))
    | named | literal => cases heq
  | literal =>
    cases y with
    | literal => exact heq
    | named | blank => cases heq

section Triples
variable {ρ : String → String} {labels : Set String} {ts : List Triple} {x y : Term}

/-- The nodes of some triples have their labels among some labels. -/
def LabelledIn (labels : Set String) (ts : List Triple) : Prop :=
  ∀ t ∈ ts, t.subject.LabelledIn labels ∧ t.object.LabelledIn labels

theorem Reaches.labelledIn (h : Reaches ts x y) (hts : LabelledIn labels ts)
    (hx : x.LabelledIn labels) : y.LabelledIn labels :=
  h.preserves hx fun t ht _ _ => (hts t ht).2

/-- Renamed triples lead from a renamed node to the renamed ones that the triples lead to. -/
theorem Reaches.of_rename {z : Term} (hρ : Set.InjOn ρ labels) (hts : LabelledIn labels ts)
    (hx : x.LabelledIn labels)
    (h : Reaches (ts.map (Triple.mapNodes (Term.rename ρ))) (x.rename ρ) z) :
    ∃ y, Reaches ts x y ∧ y.rename ρ = z := by
  refine h.preserves (p := fun z => ∃ y, Reaches ts x y ∧ y.rename ρ = z) ⟨x, .refl, rfl⟩ ?_
  rintro u hu ⟨y, hy, hsubject⟩ hblank
  obtain ⟨t, ht, rfl⟩ := List.mem_map.mp hu
  have heq : y = t.subject :=
    Term.rename_injOn hρ (hy.labelledIn hts hx) (hts t ht).1 hsubject
  have hstep : Reaches ts t.subject t.object :=
    .of_mem ht ((t.object.isBlank_rename ρ).symm.trans hblank)
  exact ⟨t.object, (heq ▸ hy).trans hstep, rfl⟩

theorem reaches_rename_iff (hρ : Set.InjOn ρ labels) (hts : LabelledIn labels ts)
    (hx : x.LabelledIn labels) (hy : y.LabelledIn labels) :
    Reaches (ts.map (Triple.mapNodes (Term.rename ρ))) (x.rename ρ) (y.rename ρ) ↔
      Reaches ts x y := by
  constructor
  · intro h
    obtain ⟨z, hz, heq⟩ := h.of_rename hρ hts hx
    rw [← Term.rename_injOn hρ (hz.labelledIn hts hx) hy heq]
    exact hz
  · exact fun h => h.rename ρ

/-- The typing of an IRI is among renamed triples if it was among them before. -/
theorem Scheme.typing_mem_map_iff {s : Scheme} {iri : String} (hroot : s.root = .named iri) :
    s.typing ∈ ts.map (Triple.mapNodes (Term.rename ρ)) ↔ s.typing ∈ ts := by
  have hterms : ∀ t : Triple, t.mapNodes (Term.rename ρ) = s.typing ↔ t = s.typing := by
    rintro ⟨subject, predicate, object⟩
    simp only [Triple.mapNodes, Scheme.typing, hroot, Triple.mk.injEq, Term.rename_eq_named_iff]
  simp only [List.mem_map, hterms, exists_eq_right]

end Triples

namespace Graph
variable {g h : Graph} {ρ : String → String} {labels : Set String} {x : Term}

/-- The labels of a graph are those of its nodes. -/
theorem labelledIn_triples (hlabels : ∀ label ∈ g.blankLabels, label ∈ labels) :
    LabelledIn labels g.triples := by
  refine fun t ht => ⟨fun label hsubject => ?_, fun label hobject => ?_⟩
  · exact hlabels label (mem_blankLabels.mpr ⟨t, ht, .inl hsubject⟩)
  · exact hlabels label (mem_blankLabels.mpr ⟨t, ht, .inr hobject⟩)

theorem mirrors_of_rename (hg : g.Indexed) (hh : h.Indexed) (hρ : Set.InjOn ρ labels)
    (hts : LabelledIn labels g.triples)
    (htriples : h.triples = g.triples.map (Triple.mapNodes (Term.rename ρ))) :
    g.Mirrors h ρ (·.LabelledIn labels) where
  lookup x q hx := by
    rw [hh.firstObject_eq_earliest, hg.firstObject_eq_earliest, htriples]
    refine earliest_mapNodes (fun t ht => ⟨fun heq => ?_, fun heq => congrArg _ heq⟩) q
    exact Term.rename_injOn hρ (hts t ht).1 hx heq
  closed x q y _ hy := (hts _ (hg.mem_of_firstObject hy)).2
  injective _ _ hx hy heq := Term.rename_injOn hρ hx hy heq

theorem describe_rename (hg : g.Indexed) (hh : h.Indexed) (hρ : Set.InjOn ρ labels)
    (hts : LabelledIn labels g.triples) (hx : x.LabelledIn labels)
    (hget : ∀ i, h.get? i = (g.get? i).map (Triple.mapNodes (Term.rename ρ))) :
    h.describe (x.rename ρ) = g.describe x := by
  have hreach : ∀ e ∈ g.entries, e.2.subject.rename ρ ∈ h.reach [] [x.rename ρ] ↔
      e.2.subject ∈ g.reach [] [x] := by
    intro e he
    have ht : e.2 ∈ g.triples := List.mem_map_of_mem he
    simp only [hg.mem_reach_iff, hh.mem_reach_iff, List.mem_singleton, exists_eq_left,
      triples_of_get?_map hget, reaches_rename_iff hρ hts hx (hts e.2 ht).1]
  have hkept : ∀ e ∈ g.entries,
      decide (e.2.subject.rename ρ ∈ h.reach [] [x.rename ρ]) =
        decide (e.2.subject ∈ g.reach [] [x]) := fun e he => decide_eq_decide.mpr (hreach e he)
  rw [describe, describe, entries_of_get?_map hget, List.filter_map, List.map_map,
    ← List.filter_congr hkept]
  rfl

/-- Facts below an IRI are read as before, or the same fault is reported. -/
theorem extract_of_rename {s : Scheme} {iri : String} (hroot : s.root = .named iri)
    (hg : g.Indexed) (hh : h.Indexed) (hρ : Set.InjOn ρ labels)
    (hts : LabelledIn labels g.triples)
    (htriples : h.triples = g.triples.map (Triple.mapNodes (Term.rename ρ))) :
    s.extract h = (s.extract g).mapError (ListFault.rename ρ) := by
  have hself : s.root.rename ρ = s.root := by
    rw [hroot]
    rfl
  have hlabelled : s.root.LabelledIn labels := by
    intro label hlabel
    rw [hroot] at hlabel
    cases hlabel
  refine (mirrors_of_rename hg hh hρ hts htriples).extract hlabelled hself hg hh ?_
  rw [htriples]
  exact Scheme.typing_mem_map_iff hroot

/-- Labels carry no meaning. Graphs with other labels exist, and in each of them the facts of a
condition whose root is an IRI are read as before, or the same fault is reported; so are the
members of a list; and a node is described under the same indices. -/
theorem readers_ignore_labels (ops : List Operation) (ρ : String → String) (labels : Set String)
    (hlabels : ∀ label ∈ (run ∅ ops).blankLabels, label ∈ labels) (hρ : Set.InjOn ρ labels) :
    let g := run ∅ ops
    (∃ others, ∀ i,
      (run ∅ others).get? i = (g.get? i).map (Triple.mapNodes (Term.rename ρ))) ∧
    ∀ others,
      let h := run ∅ others
      (∀ i, h.get? i = (g.get? i).map (Triple.mapNodes (Term.rename ρ))) →
      (∀ (s : Scheme) (iri : String), s.root = .named iri →
        s.extract h = (s.extract g).mapError (ListFault.rename ρ)) ∧
      (∀ head : Term, head.LabelledIn labels → h.decode (head.rename ρ) =
        ((g.decode head).map (List.map (Term.rename ρ))).mapError (ListFault.rename ρ)) ∧
      ∀ root : Term, root.LabelledIn labels → h.describe (root.rename ρ) = g.describe root := by
  intro g
  refine ⟨⟨_, (Renamed.empty.run ops).get?_eq⟩, ?_⟩
  intro others h hget
  have hg : g.Indexed := indexed_run ops
  have hh : h.Indexed := indexed_run others
  have hts : LabelledIn labels g.triples := labelledIn_triples hlabels
  have htriples := triples_of_get?_map hget
  refine ⟨fun s iri hroot => extract_of_rename hroot hg hh hρ hts htriples, fun head hhead => ?_,
    fun root hroot => describe_rename hg hh hρ hts hroot hget⟩
  exact (mirrors_of_rename hg hh hρ hts htriples).decode hhead

/-- Two labels that change places, behind a triple that is removed: an expression that is its own
operand, and a list that is its own rest. -/
theorem readers_ignore_labels_swapped :
    let ρ : String → String := fun label => if label = "a" then "b" else "a"
    let s : Scheme := ⟨.named "urn:org#policy", ∅, .dayMonthYear⟩
    let ops : List Operation :=
      [.ofTriples [⟨.blank "b", Names.Context.allOf, .blank "a"⟩, s.typing,
          ⟨s.root, Dimension.user.link, .blank "a"⟩,
          ⟨.blank "a", Names.Context.expression, .blank "b"⟩,
          ⟨.blank "b", Names.Context.not, .blank "b"⟩,
          ⟨.blank "a", Names.Rdf.first, .plain "staff"⟩,
          ⟨.blank "a", Names.Rdf.rest, .blank "a"⟩],
        .remove 0]
    let g := run ∅ ops
    let h := run ∅ (ops.map (Operation.mapNodes (Term.rename ρ)))
    s.extract h = (s.extract g).mapError (ListFault.rename ρ) ∧
      h.decode (.blank "b") =
        ((g.decode (.blank "a")).map (List.map (Term.rename ρ))).mapError (ListFault.rename ρ) ∧
      h.describe (.blank "a") = g.describe (.blank "b") := by
  intro ρ s ops g h
  have hblank : g.blankLabels = ["a", "b"] := by decide +kernel
  have hlabels : ∀ label ∈ g.blankLabels, label ∈ ({"a", "b"} : Set String) := by
    rw [hblank]
    simp
  have hρ : Set.InjOn ρ {"a", "b"} := by
    rintro x (rfl | rfl) y (rfl | rfl) heq <;> simp_all [ρ]
  obtain ⟨-, hall⟩ := readers_ignore_labels ops ρ {"a", "b"} hlabels hρ
  obtain ⟨hextract, hdecode, hdescribe⟩ := hall _ (Renamed.empty.run ops).get?_eq
  have hlabelled : ∀ label ∈ ({"a", "b"} : Set String),
      (Term.blank label).LabelledIn {"a", "b"} := by
    rintro label hmem _ ⟨⟩
    exact hmem
  exact ⟨hextract s _ rfl, hdecode _ (hlabelled "a" (.inl rfl)),
    hdescribe _ (hlabelled "b" (.inr rfl))⟩

end Graph

end ContextPolicy
