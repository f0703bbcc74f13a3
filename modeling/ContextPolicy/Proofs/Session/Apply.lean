import ContextPolicy.Proofs.Condition.RoundTrip
import ContextPolicy.Proofs.Session.Relabel

/-! Facts put into a session, and what is read from it then.

`applyInPlace_of_compile` says what is done to a session without the detours: only what does not
compile is refused, for the indices that are removed are those of stored triples; the triples
outside the condition are left, and the new ones are put behind them. So nothing comes before the new triples
that a lookup from the root could find (`earliest_clear_link`), nor has what stays a blank
node under one of the new labels (`earliest_blank`). The new graph therefore answers as
the compiled triples do, whatever else it holds (`answers_install`). -/
namespace ContextPolicy

namespace Scheme
variable {s : Scheme} {g : Graph}

/-! ### What stays -/

/-- Whether a triple is part of the condition in a graph. -/
def ofCondition (s : Scheme) (g : Graph) (t : Triple) : Bool :=
  t == s.typing || s.isLink t || t.subject ∈ g.reach [] (s.blockNodes g)

/-- The graph without its condition. -/
def clear (s : Scheme) (g : Graph) : Graph :=
  g.eraseEach (Graph.sortedIndices (s.conditionIndices g))

theorem mem_conditionIndices {i : Nat} :
    i ∈ s.conditionIndices g ↔ ∃ t, g.get? i = some t ∧ s.ofCondition g t = true := by
  show i ∈ (g.entries.filter fun e => s.ofCondition g e.2).map (·.1) ↔ _
  rw [List.mem_map]
  constructor
  · rintro ⟨⟨j, t⟩, hmem, rfl⟩
    obtain ⟨hmem, hcond⟩ := List.mem_filter.mp hmem
    exact ⟨t, Graph.mem_entries_iff.mp hmem, hcond⟩
  · rintro ⟨t, ht, hcond⟩
    exact ⟨(i, t), List.mem_filter.mpr ⟨Graph.mem_entries_iff.mpr ht, hcond⟩, rfl⟩

theorem entries_clear :
    (s.clear g).entries = g.entries.filter fun e => !s.ofCondition g e.2 := by
  rw [clear, Graph.entries_eraseEach]
  refine List.filter_congr ?_
  rintro ⟨i, t⟩ hmem
  have ht := Graph.mem_entries_iff.mp hmem
  have hiff : i ∈ Graph.sortedIndices (s.conditionIndices g) ↔ s.ofCondition g t = true := by
    rw [Graph.mem_sortedIndices, mem_conditionIndices]
    constructor
    · rintro ⟨u, hu, hcond⟩
      rw [ht, Option.some.injEq] at hu
      rw [hu, hcond]
    · exact fun hcond => ⟨t, ht, hcond⟩
  cases hcond : s.ofCondition g t <;> simp [hiff, hcond]

theorem triples_clear : (s.clear g).triples = g.triples.filter fun t => !s.ofCondition g t := by
  rw [Graph.triples, Log.triples]
  show (s.clear g).entries.map (·.2) = _
  rw [entries_clear, Graph.triples, Log.triples, List.filter_map]
  rfl

/-- The triples of the condition can be removed, all of them. -/
theorem removeAll_conditionIndices (s : Scheme) (g : Graph) :
    ∃ ts, g.removeAllInPlace (s.conditionIndices g) = (.ok ts, s.clear g) := by
  have hascending : (s.conditionIndices g).Pairwise (· < ·) :=
    List.pairwise_map.mpr (g.log.entries_ascending.filter _)
  have hlive : ∀ i ∈ s.conditionIndices g, (g.get? i).isSome := by
    intro i hi
    obtain ⟨t, ht, -⟩ := mem_conditionIndices.mp hi
    rw [ht]
    rfl
  exact ⟨_, Graph.Removable.removeAllInPlace_eq ⟨hascending.imp Nat.ne_of_lt, hlive⟩⟩

theorem bounded_clear (h : g.Bounded) : (s.clear g).Bounded :=
  h.eraseEach _

theorem earliest_clear_link (d : Dimension) :
    earliest (s.clear g).triples s.root d.link = none := by
  refine earliest_eq_none fun t ht hsubject hpredicate => ?_
  rw [triples_clear] at ht
  have hlink : s.isLink t = true := by
    rw [isLink, hsubject, beq_self_eq_true, Bool.true_and, List.any_eq_true]
    exact ⟨d, Dimension.mem_all d, beq_iff_eq.mpr hpredicate.symm⟩
  have hkept := (List.mem_filter.mp ht).2
  rw [ofCondition, hlink, Bool.or_true, Bool.true_or] at hkept
  cases hkept

/-- Nothing is said of a blank node that a graph does not have. -/
theorem earliest_blank {label : String} (h : label ∉ g.blankLabels) (q : String) :
    earliest g.triples (.blank label) q = none := by
  refine earliest_eq_none fun t ht hsubject _ => h ?_
  exact Graph.mem_blankLabels.mpr ⟨t, ht, .inl hsubject⟩

/-! ### What comes -/

/-- The graph with compiled triples in place of its condition. -/
def install (s : Scheme) (g : Graph) (ts : List Triple) : Graph :=
  (s.clear g).addAll (relabel (s.clear g).blankLabels ts)

theorem triples_install (s : Scheme) (h : g.Bounded) (ts : List Triple) :
    (s.install g ts).triples =
      (s.clear g).triples ++ relabel (s.clear g).blankLabels ts :=
  Graph.triples_addAll (bounded_clear h) _

theorem indexed_install (h : g.Indexed) (ts : List Triple) : (s.install g ts).Indexed :=
  (h.eraseEach _).addAll _

/-- The blank nodes of compiled triples with content. -/
theorem compile_spans {facts : Facts} {ts : List Triple} (h : s.compile facts = .ok ts) :
    ∃ m, Spans 0 m ts := by
  rcases compile_ok h with ⟨-, rfl⟩ | ⟨us, hus, rfl⟩
  · exact ⟨0, Spans.nil⟩
  · obtain ⟨m, -, hspans⟩ := blocks_spans hus
    refine ⟨m, fun t ht hcontent => ?_⟩
    rcases List.mem_cons.mp ht with rfl | ht
    · rw [typing, isContent_type] at hcontent
      cases hcontent
    · exact hspans t ht hcontent

theorem answers_install {facts : Facts} {ts : List Triple} (hg : g.Indexed)
    (h : s.compile facts = .ok ts) :
    (s.install g ts).Answers (relabelling (s.clear g).blankLabels ts) ts := by
  intro t ht hcontent q _
  obtain ⟨m, hspans⟩ := compile_spans h
  obtain ⟨k, -, -, hsubject⟩ := hspans t ht hcontent
  have hlabel : conditionLabel k ∈ labelsOf ts := mem_labelsOf.mpr ⟨t, ht, .inl hsubject⟩
  have hnone : earliest (s.clear g).triples
      (t.subject.rename (relabelling (s.clear g).blankLabels ts)) q = none := by
    rw [hsubject]
    exact earliest_blank (relabelling_not_taken hlabel) q
  rw [(indexed_install hg ts).firstObject_eq_earliest, triples_install s hg.bounded,
    earliest_append, hnone,
    Option.none_or, earliest_relabel]
  intro label hx
  exact mem_labelsOf.mpr ⟨t, ht, .inl hx⟩

/-- A root that is an IRI is not renamed, and its old links are gone. -/
theorem firstObject_install_link (hg : g.Indexed) {iri : String} (hroot : s.root = .named iri)
    (ts : List Triple) (d : Dimension) :
    (s.install g ts).firstObject s.root d.link =
      (earliest ts s.root d.link).map
        (Term.rename (relabelling (s.clear g).blankLabels ts)) := by
  rw [(indexed_install hg ts).firstObject_eq_earliest, triples_install s hg.bounded,
    earliest_append, earliest_clear_link, Option.none_or, ← earliest_relabel]
  · rw [hroot]
    rfl
  · intro label hx
    rw [hroot] at hx
    cases hx

theorem find_install_typing (hg : g.Indexed) {iri : String} (hroot : s.root = .named iri)
    {ts : List Triple} (ht : s.typing ∈ ts) :
    (s.install g ts).find ⟨some s.root, some (.named Names.Rdf.type),
      some (.named Names.Context.accessCondition)⟩ ≠ [] := by
  have hself : s.typing.mapNodes (Term.rename (relabelling (s.clear g).blankLabels ts)) =
      s.typing := by
    rw [typing, hroot]
    rfl
  have hmem : s.typing ∈ (s.install g ts).triples := by
    rw [triples_install s hg.bounded, relabel_eq]
    exact List.mem_append_right _ (List.mem_map.mpr ⟨s.typing, ht, hself⟩)
  exact (indexed_install hg ts).find_ne_nil hmem

end Scheme

namespace Session
variable {s : Session}

/-- Facts that do not compile are refused before anything is removed. -/
theorem applyInPlace_of_invalid {facts : Facts} {fault : ValidationFault}
    (h : s.scheme.compile facts = .error fault) :
    s.applyInPlace facts = (.error (.invalid fault), s) := by
  rw [applyInPlace, h]

/-- All others are put in, for the old condition can be removed. -/
theorem applyInPlace_of_compile {facts : Facts} {ts : List Triple}
    (h : s.scheme.compile facts = .ok ts) :
    s.applyInPlace facts =
      (.ok ts.length, { s with graph := s.scheme.install s.graph ts }) := by
  obtain ⟨us, hus⟩ := s.scheme.removeAll_conditionIndices s.graph
  simp only [applyInPlace, h, hus]
  rfl

theorem apply_of_invalid {facts : Facts} {fault : ValidationFault}
    (h : s.scheme.compile facts = .error fault) : s.apply facts = .error (.invalid fault) :=
  Change.settled_eq_error_iff.mpr (congrArg Prod.fst (applyInPlace_of_invalid h))

theorem apply_of_compile {facts : Facts} {ts : List Triple}
    (h : s.scheme.compile facts = .ok ts) :
    s.apply facts = .ok (ts.length, { s with graph := s.scheme.install s.graph ts }) :=
  Change.settled_eq_ok_iff.mpr (applyInPlace_of_compile h)

theorem apply_ok {facts : Facts} {n : Nat} {s' : Session} (h : s.apply facts = .ok (n, s')) :
    ∃ ts, s.scheme.compile facts = .ok ts ∧ n = ts.length ∧
      s' = { s with graph := s.scheme.install s.graph ts } := by
  cases hts : s.scheme.compile facts with
  | error e =>
    rw [apply_of_invalid hts] at h
    cases h
  | ok ts =>
    rw [apply_of_compile hts] at h
    cases h
    exact ⟨ts, rfl, rfl, rfl⟩

/-- The facts of a session are those that were put in last. -/
theorem facts_apply (ops : List Graph.Operation) (hgraph : s.graph = Graph.run ∅ ops)
    {iri : String} (hroot : s.scheme.root = .named iri) {facts : Facts} (hbuilt : facts.Built)
    (hnum : ∀ x ∈ facts.numbers, x.isFinite → ReadsBack x) {n : Nat} {s' : Session}
    (h : s.apply facts = .ok (n, s')) : s'.facts = .ok facts := by
  obtain ⟨ts, hts, -, rfl⟩ := apply_ok h
  have hg : s.graph.Indexed := hgraph ▸ Graph.indexed_run ops
  exact Scheme.extract_of_compile hbuilt hnum hts (Scheme.answers_install hg hts)
    (Scheme.firstObject_install_link hg hroot ts) (Scheme.find_install_typing hg hroot)

/-- Facts put where an operator inside itself was the condition, and where what stays has
the first label and mentions the third. -/
theorem facts_apply_occupied :
    let laptop : Keywords := (∅ : Keywords).insert "laptop" ⟨"urn:org#deviceType", .plain "laptop"⟩
    let settings : Settings := { Settings.default with vocabulary := ⟨∅, ∅, laptop⟩ }
    let root : Term := .named (Settings.defaultCondition Settings.defaultBase)
    let ops : List Graph.Operation :=
      [.ofTriples [settings.scheme.typing, ⟨root, Dimension.device.link, conditionNode 1⟩,
          ⟨conditionNode 1, Names.Context.expression, conditionNode 2⟩,
          ⟨conditionNode 2, Names.Context.not, conditionNode 2⟩],
        .add ⟨conditionNode 0, "urn:org#about", conditionNode 2⟩, .remove 0]
    let s : Session := { ofSettings settings with graph := .run ∅ ops }
    let facts : Facts :=
      ((∅ : Facts).insert (.device (some (.any [.not (.all [.keyword "Laptop"]), .all []])))).insert
        (.outdoor ⟨some 51.5, some (-0.12), some 300, .meters⟩)
    ∃ n s', s.apply facts = .ok (n, s') ∧ s'.facts = .ok facts := by
  intro laptop settings root ops s facts
  have hbuilt : facts.Built := (Facts.Built.empty.insert _).insert _
  have hnum : ∀ x ∈ facts.numbers, x.isFinite → ReadsBack x := by decide +kernel
  have hok : (settings.scheme.compile facts).toOption.isSome := by decide +kernel
  cases hts : settings.scheme.compile facts with
  | error e =>
    rw [hts] at hok
    cases hok
  | ok ts =>
    have happly : s.apply facts =
        .ok (ts.length, { s with graph := s.scheme.install s.graph ts }) :=
      apply_of_compile hts
    exact ⟨_, _, happly, facts_apply ops rfl rfl hbuilt hnum happly⟩

end Session

end ContextPolicy
