import ContextPolicy.Proofs.Condition.Connected
import ContextPolicy.Proofs.Session.Apply

/-! What facts put into a session change in its graph.

The walk that finds the old condition finds what `InCondition` says it is
(`ofCondition_iff`). So nothing else is lost and nothing of it stays, and every other triple
keeps its index; the new triples come behind all of them, under labels that none of the
triples that stay has. `Replaced` puts this together, and `apply_replaces` adds that a session
is left in one of two states only: as it was, by facts that do not compile, or with its
condition replaced. That the old condition could not be removed, and part of it would be gone,
does not happen. -/
namespace ContextPolicy

namespace Scheme
variable {s : Scheme} {g : Graph}

theorem mem_blockNodes {x : Term} :
    x ∈ s.blockNodes g ↔ x.isBlank ∧ ∃ d, ⟨s.root, Dimension.link d, x⟩ ∈ g.triples := by
  simp only [blockNodes, List.mem_filter, List.mem_map, isLink_iff]
  constructor
  · rintro ⟨⟨t, ⟨ht, d, node, rfl⟩, rfl⟩, hblank⟩
    exact ⟨hblank, d, ht⟩
  · rintro ⟨hblank, d, ht⟩
    exact ⟨⟨_, ⟨ht, d, x, rfl⟩, rfl⟩, hblank⟩

/-- The walk over a graph finds its condition. -/
theorem ofCondition_iff (h : g.Indexed) {t : Triple} :
    s.ofCondition g t = true ↔ s.InCondition g.triples t := by
  simp only [ofCondition, Bool.or_eq_true, beq_iff_eq, decide_eq_true_eq, or_assoc, isLink_iff,
    h.mem_reach_iff, mem_blockNodes]
  constructor
  · rintro (rfl | ⟨d, node, rfl⟩ | ⟨block, ⟨hblank, d, hlink⟩, hreach⟩)
    · exact .typing
    · exact .link d node
    · exact .described hlink hblank hreach
  · intro hin
    cases hin with
    | typing => exact .inl rfl
    | link d node => exact .inr (.inl ⟨d, node, rfl⟩)
    | described hlink hblank hreach => exact .inr (.inr ⟨_, ⟨hblank, _, hlink⟩, hreach⟩)

theorem get?_clear (h : g.Indexed) {i : Nat} {t : Triple} :
    (s.clear g).get? i = some t ↔ g.get? i = some t ∧ ¬s.InCondition g.triples t := by
  rw [← Graph.mem_entries_iff, entries_clear, List.mem_filter, Graph.mem_entries_iff,
    ← ofCondition_iff h, Bool.not_eq_true, Bool.not_eq_true']

theorem nextIndex_clear (s : Scheme) (g : Graph) : (s.clear g).nextIndex = g.nextIndex :=
  g.nextIndex_eraseEach _

/-- A graph is another one with triples in place of its condition, under other labels. -/
structure Replaced (s : Scheme) (g : Graph) (ts : List Triple) (ρ : String → String)
    (h : Graph) : Prop where
  /-- What is no part of the condition stays under its index, and nothing else. -/
  kept : ∀ i < g.nextIndex, ∀ t,
    h.get? i = some t ↔ g.get? i = some t ∧ ¬s.InCondition g.triples t
  added : ∀ k, h.get? (g.nextIndex + k) = ts[k]?.map (Triple.mapNodes (Term.rename ρ))
  nextIndex : h.nextIndex = g.nextIndex + ts.length
  injective : ∀ label ∈ labelsOf ts, ∀ other ∈ labelsOf ts, ρ label = ρ other → label = other
  fresh : ∀ label ∈ labelsOf ts, ∀ i < g.nextIndex, ∀ t, h.get? i = some t →
    t.subject ≠ .blank (ρ label) ∧ t.object ≠ .blank (ρ label)

theorem replaced_install (h : g.Indexed) (ts : List Triple) :
    s.Replaced g ts (relabelling (s.clear g).blankLabels ts) (s.install g ts) := by
  have hnext := s.nextIndex_clear g
  have hold : ∀ i < g.nextIndex, (s.install g ts).get? i = (s.clear g).get? i :=
    fun i hi => Graph.get?_addAll_of_lt (hnext ▸ hi) _
  refine ⟨fun i hi t => ?_, fun k => ?_, ?_, ?_, ?_⟩
  · rw [hold i hi, get?_clear h]
  · rw [← hnext, install, Graph.get?_addAll_add (bounded_clear h.bounded), relabel_eq,
      List.getElem?_map]
  · rw [install, Graph.nextIndex_addAll, hnext, relabel_eq, List.length_map]
  · exact fun label hlabel other hother => relabelling_inj hlabel hother
  · intro label hlabel i hi t ht
    rw [hold i hi] at ht
    have hfree : relabelling (s.clear g).blankLabels ts label ∉ (s.clear g).blankLabels :=
      relabelling_not_taken hlabel
    rw [Graph.mem_blankLabels] at hfree
    have hmem : t ∈ (s.clear g).triples := Log.mem_triples_of_get? ht
    exact ⟨fun hs => hfree ⟨t, hmem, .inl hs⟩, fun ho => hfree ⟨t, hmem, .inr ho⟩⟩

end Scheme

namespace Session
variable {s : Session}

/-- The session that facts leave, put in or refused. -/
def applied (s : Session) (facts : Facts) : Session :=
  (s.applyInPlace facts).2

theorem applied_of_invalid {facts : Facts} {fault : ValidationFault}
    (h : s.scheme.compile facts = .error fault) : s.applied facts = s := by
  rw [applied, applyInPlace_of_invalid h]

theorem applied_of_compile {facts : Facts} {ts : List Triple}
    (h : s.scheme.compile facts = .ok ts) :
    s.applied facts = { s with graph := s.scheme.install s.graph ts } := by
  rw [applied, applyInPlace_of_compile h]

/-- Facts are refused for what is wrong with them, and leave the session as it was; or they take
the place of the condition, of all of it and of nothing else. -/
theorem apply_replaces (ops : List Graph.Operation) (hgraph : s.graph = Graph.run ∅ ops)
    (facts : Facts) :
    (∀ fault, s.scheme.compile facts = .error fault →
      s.applyInPlace facts = (.error (.invalid fault), s) ∧
      s.apply facts = .error (.invalid fault)) ∧
    ∀ ts, s.scheme.compile facts = .ok ts → ∃ g ρ,
      s.applyInPlace facts = (.ok ts.length, { s with graph := g }) ∧
      s.apply facts = .ok (ts.length, { s with graph := g }) ∧
      s.scheme.Replaced s.graph ts ρ g := by
  have hg : s.graph.Indexed := hgraph ▸ Graph.indexed_run ops
  refine ⟨fun fault h => ⟨applyInPlace_of_invalid h, apply_of_invalid h⟩, fun ts h => ?_⟩
  exact ⟨_, _, applyInPlace_of_compile h, apply_of_compile h, Scheme.replaced_install hg ts⟩

/-- A radius below zero, and a window put where a node that leads back to itself was the
condition. -/
theorem apply_replaces_cycle :
    let scheme : Scheme := Settings.default.scheme
    let ops : List Graph.Operation :=
      [.ofTriples [scheme.typing, ⟨scheme.root, Dimension.time.link, conditionNode 0⟩,
          ⟨conditionNode 0, "urn:org#next", conditionNode 0⟩],
        .add ⟨scheme.root, "urn:org#label", .plain "Lab access"⟩, .remove 0]
    let s : Session := { default with graph := .run ∅ ops }
    let bad : Facts := (∅ : Facts).insert (.outdoor ⟨some 10, some 20, some (-5), .meters⟩)
    let good : Facts := (∅ : Facts).insert (.time ⟨some "08:00", some "18:00"⟩)
    (∃ fault, s.applyInPlace bad = (.error fault, s)) ∧
      ∃ ts g ρ, s.applyInPlace good = (.ok ts.length, { s with graph := g }) ∧
        s.scheme.Replaced s.graph ts ρ g := by
  intro scheme ops s bad good
  have hbad : (scheme.compile bad).toOption.isNone := by decide +kernel
  have hgood : (scheme.compile good).toOption.isSome := by decide +kernel
  obtain ⟨hrefused, -⟩ := apply_replaces (s := s) ops rfl bad
  obtain ⟨-, hreplaced⟩ := apply_replaces (s := s) ops rfl good
  constructor
  · cases hfault : scheme.compile bad with
    | error fault => exact ⟨_, (hrefused fault hfault).1⟩
    | ok ts =>
      rw [hfault] at hbad
      cases hbad
  · cases hts : scheme.compile good with
    | error fault =>
      rw [hts] at hgood
      cases hgood
    | ok ts =>
      obtain ⟨g, ρ, happly, -, hg⟩ := hreplaced ts hts
      exact ⟨ts, g, ρ, happly, hg⟩

end Session

end ContextPolicy
