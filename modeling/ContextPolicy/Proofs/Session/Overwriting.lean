import ContextPolicy.Proofs.Session.Replacement

/-! Facts put into a session over other facts.

Putting facts in and clearing the condition again gives the triples back that were there
without a condition (`triples_clear_install`). Nothing of a compiled condition stays, for it
hangs off the root under new labels as it did under its own; and nothing else goes, for what
stays has none of these labels, so no walk along them comes to it. The labels of a new
condition depend on what stays only. Hence the last facts alone decide: `apply_last_wins`. -/
namespace ContextPolicy

namespace Scheme
variable {s : Scheme} {g : Graph} {ts : List Triple} {x : Term}

/-! ### The new triples -/

/-- A blank node that triples have under a new label. -/
def IsNew (taken : List String) (ts : List Triple) (x : Term) : Prop :=
  ∃ label ∈ labelsOf ts, x = .blank (relabelling taken ts label)

theorem isNew_object {taken : List String} {t : Triple} (ht : t ∈ relabel taken ts)
    (hblank : t.object.isBlank) : IsNew taken ts t.object := by
  rw [relabel_eq] at ht
  obtain ⟨u, hu, rfl⟩ := List.mem_map.mp ht
  obtain ⟨subject, predicate, object⟩ := u
  cases object with
  | named iri | literal value datatype lang => cases hblank
  | blank label => exact ⟨label, mem_labelsOf.mpr ⟨_, hu, .inr rfl⟩, rfl⟩

/-- What stays in a graph says nothing of a new node. -/
theorem subject_ne_of_isNew (hx : IsNew (s.clear g).blankLabels ts x) {t : Triple}
    (ht : t ∈ (s.clear g).triples) : t.subject ≠ x := by
  obtain ⟨label, hlabel, rfl⟩ := hx
  intro hsubject
  exact relabelling_not_taken hlabel (Graph.mem_blankLabels.mpr ⟨t, ht, .inl hsubject⟩)

/-- New nodes lead to new nodes only. -/
theorem isNew_of_reaches (hg : g.Indexed) {block : Term} (hblock : IsNew (s.clear g).blankLabels ts block)
    (hreach : Reaches (s.install g ts).triples block x) : IsNew (s.clear g).blankLabels ts x := by
  refine hreach.preserves hblock fun t ht hsubject hblank => ?_
  rw [triples_install s hg.bounded] at ht
  rcases List.mem_append.mp ht with ht | ht
  · exact absurd rfl (subject_ne_of_isNew hsubject ht)
  · exact isNew_object ht hblank

/-! ### The condition of the new graph -/

theorem not_inCondition_of_mem_clear (hg : g.Indexed) {t : Triple}
    (ht : t ∈ (s.clear g).triples) : ¬s.InCondition g.triples t := by
  rw [triples_clear] at ht
  rw [← ofCondition_iff hg, Bool.not_eq_true, ← Bool.not_eq_true']
  exact (List.mem_filter.mp ht).2

/-- What stays is no part of the new condition. -/
theorem not_inCondition_install (hg : g.Indexed) {t : Triple} (ht : t ∈ (s.clear g).triples) :
    ¬s.InCondition (s.install g ts).triples t := by
  have hold : ∀ u ∈ (s.clear g).triples, ¬s.InCondition g.triples u :=
    fun u hu => not_inCondition_of_mem_clear hg hu
  intro hin
  cases hin with
  | typing => exact hold _ ht .typing
  | link d node => exact hold _ ht (.link d node)
  | @described d block _ hlink hblank hreach =>
    rw [triples_install s hg.bounded] at hlink
    rcases List.mem_append.mp hlink with hlink | hlink
    · exact hold _ hlink (.link d block)
    · have hblock : IsNew (s.clear g).blankLabels ts block := isNew_object hlink hblank
      exact subject_ne_of_isNew (isNew_of_reaches hg hblock hreach) ht rfl

/-- All that is new is part of the new condition. -/
theorem inCondition_install (hg : g.Indexed) {facts : Facts} (h : s.compile facts = .ok ts)
    {iri : String} (hroot : s.root = .named iri) {t : Triple}
    (ht : t ∈ relabel (s.clear g).blankLabels ts) : s.InCondition (s.install g ts).triples t := by
  rw [triples_install s hg.bounded, relabel_eq]
  rw [relabel_eq] at ht
  obtain ⟨u, hu, rfl⟩ := List.mem_map.mp ht
  exact ((compile_inCondition h u hu).rename hroot _).mono (List.subset_append_right _ _)

/-! ### Once more -/

/-- Without its condition, a graph is the same before facts were put in and after. -/
theorem triples_clear_install (hg : g.Indexed) {facts : Facts} (h : s.compile facts = .ok ts)
    {iri : String} (hroot : s.root = .named iri) :
    (s.clear (s.install g ts)).triples = (s.clear g).triples := by
  have hnew : (s.install g ts).Indexed := indexed_install hg ts
  have hkept : ∀ t ∈ (s.clear g).triples, (!s.ofCondition (s.install g ts) t) = true := by
    intro t ht
    rw [Bool.not_eq_true', ← Bool.not_eq_true, ofCondition_iff hnew]
    exact not_inCondition_install hg ht
  have hgone : ∀ t ∈ relabel (s.clear g).blankLabels ts,
      ¬(!s.ofCondition (s.install g ts) t) = true := by
    intro t ht
    rw [Bool.not_eq_true', Bool.not_eq_false, ofCondition_iff hnew]
    exact inCondition_install hg h hroot ht
  calc (s.clear (s.install g ts)).triples
      = (s.install g ts).triples.filter fun t => !s.ofCondition (s.install g ts) t :=
        triples_clear
    _ = ((s.clear g).triples ++ relabel (s.clear g).blankLabels ts).filter
          fun t => !s.ofCondition (s.install g ts) t := by rw [triples_install s hg.bounded]
    _ = (s.clear g).triples := by
        rw [List.filter_append, List.filter_eq_self.mpr hkept, List.filter_eq_nil_iff.mpr hgone,
          List.append_nil]

/-- The triples of a graph after a condition do not depend on the condition before. -/
theorem triples_install_install (hg : g.Indexed) {earlier : Facts} {us : List Triple}
    (h : s.compile earlier = .ok us) {iri : String} (hroot : s.root = .named iri)
    (ts : List Triple) : (s.install (s.install g us) ts).triples = (s.install g ts).triples := by
  have hclear := triples_clear_install hg h hroot
  have hlabels : (s.clear (s.install g us)).blankLabels = (s.clear g).blankLabels := by
    rw [Graph.blankLabels, hclear]
    rfl
  rw [triples_install s (indexed_install hg us).bounded, hclear, hlabels,
    triples_install s hg.bounded]

theorem compile_empty (s : Scheme) : s.compile ∅ = .ok [] :=
  rfl

end Scheme

namespace Session
variable {s : Session}

theorem apply_eq_applied {facts : Facts} {ts : List Triple}
    (h : s.scheme.compile facts = .ok ts) : s.apply facts = .ok (ts.length, s.applied facts) := by
  rw [applied_of_compile h, apply_of_compile h]

/-- Facts change nothing but the graph. -/
theorem applied_frame (s : Session) (facts : Facts) :
    (s.applied facts).scheme = s.scheme ∧ (s.applied facts).prefixes = s.prefixes := by
  cases h : s.scheme.compile facts with
  | error fault =>
    rw [applied_of_invalid h]
    exact ⟨rfl, rfl⟩
  | ok ts =>
    rw [applied_of_compile h]
    exact ⟨rfl, rfl⟩

theorem triples_applied_applied (hg : s.graph.Indexed) {iri : String}
    (hroot : s.scheme.root = .named iri) {earlier facts : Facts} {us ts : List Triple}
    (hearlier : s.scheme.compile earlier = .ok us) (hfacts : s.scheme.compile facts = .ok ts) :
    ((s.applied earlier).applied facts).graph.triples = (s.applied facts).graph.triples := by
  have hagain : (s.applied earlier).scheme.compile facts = .ok ts := by
    rw [(s.applied_frame earlier).1, hfacts]
  rw [applied_of_compile hagain, applied_of_compile hearlier, applied_of_compile hfacts]
  exact Scheme.triples_install_install hg hearlier hroot ts

/-- Of facts that are put in one after the other only the last ones leave a trace; the empty
facts leave none, and the same facts a second time change nothing. -/
theorem apply_last_wins (ops : List Graph.Operation) (hgraph : s.graph = Graph.run ∅ ops)
    {iri : String} (hroot : s.scheme.root = .named iri) {earlier facts : Facts}
    {us ts : List Triple} (hearlier : s.scheme.compile earlier = .ok us)
    (hfacts : s.scheme.compile facts = .ok ts) :
    s.apply earlier = .ok (us.length, s.applied earlier) ∧
    s.apply facts = .ok (ts.length, s.applied facts) ∧
    (s.applied earlier).apply facts = .ok (ts.length, (s.applied earlier).applied facts) ∧
    ((s.applied earlier).applied facts).graph.triples = (s.applied facts).graph.triples ∧
    ((s.applied earlier).applied facts).text = (s.applied facts).text ∧
    ((s.applied earlier).applied ∅).graph.triples = (s.applied ∅).graph.triples ∧
    ((s.applied facts).applied facts).graph.triples = (s.applied facts).graph.triples := by
  have hg : s.graph.Indexed := hgraph ▸ Graph.indexed_run ops
  have htriples := triples_applied_applied hg hroot hearlier hfacts
  refine ⟨apply_eq_applied hearlier, apply_eq_applied hfacts, ?_, htriples, ?_, ?_, ?_⟩
  · refine apply_eq_applied ?_
    rw [(s.applied_frame earlier).1, hfacts]
  · have hprefixes : ((s.applied earlier).applied facts).prefixes = (s.applied facts).prefixes := by
      rw [((s.applied earlier).applied_frame facts).2, (s.applied_frame earlier).2,
        (s.applied_frame facts).2]
    rw [text, text, htriples, hprefixes]
  · exact triples_applied_applied hg hroot hearlier s.scheme.compile_empty
  · exact triples_applied_applied hg hroot hfacts hfacts

/-- An expression and a place, and a window after them, over a broken condition that shares
its node with the triples of the user. -/
theorem apply_last_wins_shared :
    let laptop : Keywords := (∅ : Keywords).insert "laptop" ⟨"urn:org#deviceType", .plain "laptop"⟩
    let settings : Settings := { Settings.default with vocabulary := ⟨∅, ∅, laptop⟩ }
    let ops : List Graph.Operation :=
      [.ofTriples [settings.scheme.typing,
          ⟨settings.scheme.root, Dimension.device.link, conditionNode 0⟩,
          ⟨conditionNode 0, Names.Context.expression, conditionNode 2⟩],
        .add ⟨.named "urn:org#lab", "urn:org#about", conditionNode 0⟩]
    let s : Session := { ofSettings settings with graph := .run ∅ ops }
    let device : Fact := .device (some (.any [.keyword "Laptop", .not (.keyword "laptop")]))
    let earlier : Facts :=
      ((∅ : Facts).insert device).insert (.outdoor ⟨some 51.5, some (-0.12), some 300, .meters⟩)
    let facts : Facts := (∅ : Facts).insert (.time ⟨some "08:00", some "18:00"⟩)
    (settings.scheme.compile earlier).toOption.isSome ∧
      (settings.scheme.compile facts).toOption.isSome ∧
      ((s.applied earlier).applied facts).text = (s.applied facts).text := by
  intro laptop settings ops s device earlier facts
  have hearlier : (settings.scheme.compile earlier).toOption.isSome := by decide +kernel
  have hfacts : (settings.scheme.compile facts).toOption.isSome := by decide +kernel
  refine ⟨hearlier, hfacts, ?_⟩
  cases hus : settings.scheme.compile earlier with
  | error fault =>
    rw [hus] at hearlier
    cases hearlier
  | ok us =>
    cases hts : settings.scheme.compile facts with
    | error fault =>
      rw [hts] at hfacts
      cases hfacts
    | ok ts => exact (apply_last_wins (s := s) ops rfl rfl hus hts).2.2.2.2.1

end Session

end ContextPolicy
