import ContextPolicy.Proofs.Condition.RoundTrip
import ContextPolicy.Proofs.Graph.Reach

/-! What hangs off the root of a condition.

`InCondition` says which triples make up a condition: the type and the links of the root,
and all that is said of the blank nodes that these reach. A compiled condition is nothing
else (`compile_inCondition`): each node that the writer numbers is the object of a triple
about a node numbered before, up to the block that the root is linked to. So the blocks,
the expressions in them and the lists of operands are followed here from the root down, in
the direction in which a reader finds them. -/
namespace ContextPolicy

/-- A triple is part of the condition among triples. -/
inductive Scheme.InCondition (s : Scheme) (ts : List Triple) : Triple → Prop
  | typing : InCondition s ts s.typing
  | link (d : Dimension) (node : Term) : InCondition s ts ⟨s.root, d.link, node⟩
  | described {d : Dimension} {block : Term} {t : Triple} (hlink : ⟨s.root, d.link, block⟩ ∈ ts)
      (hblank : block.isBlank) (hreach : Reaches ts block t.subject) : InCondition s ts t

theorem Scheme.isLink_iff {s : Scheme} {t : Triple} :
    s.isLink t = true ↔ ∃ d node, t = ⟨s.root, Dimension.link d, node⟩ := by
  simp only [isLink, Bool.and_eq_true, beq_iff_eq, List.any_eq_true]
  constructor
  · rintro ⟨hsubject, d, -, hlink⟩
    exact ⟨d, t.object, by rw [← hsubject, hlink]⟩
  · rintro ⟨d, node, rfl⟩
    exact ⟨rfl, d, Dimension.mem_all d, rfl⟩

theorem Scheme.InCondition.mono {s : Scheme} {us vs : List Triple} {t : Triple}
    (h : s.InCondition us t) (hsub : us ⊆ vs) : s.InCondition vs t := by
  cases h with
  | typing => exact .typing
  | link d node => exact .link d node
  | described hlink hblank hreach => exact .described (hsub hlink) hblank (hreach.mono hsub)

/-! ### Under other labels -/

theorem Term.isBlank_rename (ρ : String → String) (x : Term) :
    (x.rename ρ).isBlank = x.isBlank := by
  cases x <;> rfl

theorem Reaches.rename {ts : List Triple} {x y : Term} (h : Reaches ts x y)
    (ρ : String → String) :
    Reaches (ts.map (Triple.mapNodes (Term.rename ρ))) (x.rename ρ) (y.rename ρ) := by
  refine Relation.ReflTransGen.lift (Term.rename ρ) ?_ x y h
  rintro a b ⟨hblank, t, ht, rfl, rfl⟩
  exact ⟨(t.object.isBlank_rename ρ).trans hblank, _, List.mem_map_of_mem ht, rfl, rfl⟩

/-- An IRI keeps its name, so it keeps its condition. -/
theorem Scheme.InCondition.rename {s : Scheme} {ts : List Triple} {t : Triple}
    (h : s.InCondition ts t) {iri : String} (hroot : s.root = .named iri) (ρ : String → String) :
    s.InCondition (ts.map (Triple.mapNodes (Term.rename ρ))) (t.mapNodes (Term.rename ρ)) := by
  have hself : s.root.rename ρ = s.root := by
    rw [hroot]
    rfl
  cases h with
  | typing =>
    have htyping : s.typing.mapNodes (Term.rename ρ) = s.typing := by
      rw [Scheme.typing, Triple.mapNodes, hself]
      rfl
    rw [htyping]
    exact .typing
  | link d node =>
    rw [Triple.mapNodes, hself]
    exact .link d _
  | @described d block t hlink hblank hreach =>
    have hrenamed := List.mem_map_of_mem (f := Triple.mapNodes (Term.rename ρ)) hlink
    rw [Triple.mapNodes, hself] at hrenamed
    exact .described hrenamed ((block.isBlank_rename ρ).trans hblank) (hreach.rename ρ)

/-! ### Down from a node -/

/-- Every subject is reached from a node. -/
def HangsOff (x : Term) (ts : List Triple) : Prop :=
  ∀ t ∈ ts, Reaches ts x t.subject

theorem HangsOff.of_subject {x : Term} {ts : List Triple} (h : ∀ t ∈ ts, t.subject = x) :
    HangsOff x ts := by
  intro t ht
  rw [h t ht]
  exact .refl

/-- A node that is linked to another, in front of what hangs off that one. -/
theorem HangsOff.append_link {x y : Term} {q : String} {ts : List Triple} (h : HangsOff y ts)
    (hblank : ts ≠ [] → y.isBlank) : HangsOff x (ts ++ [⟨x, q, y⟩]) := by
  intro t ht
  rcases List.mem_append.mp ht with ht | ht
  · have hlink : (⟨x, q, y⟩ : Triple) ∈ ts ++ [⟨x, q, y⟩] := by simp
    have hfirst := Reaches.of_mem hlink (hblank (List.ne_nil_of_mem ht))
    exact hfirst.trans ((h t ht).mono (List.subset_append_left _ _))
  · rw [List.mem_singleton.mp ht]
    exact .refl

/-! ### Lists -/

namespace Chain

theorem head_isBlank (k : Nat) {members : List Term} (h : members ≠ []) :
    (head conditionNode k members).isBlank := by
  cases members with
  | nil => exact absurd rfl h
  | cons m rest => rfl

theorem triples_ne_nil {k : Nat} {members : List Term} {t : Triple}
    (h : t ∈ triples conditionNode k members) : members ≠ [] := by
  rintro rfl
  exact absurd h List.not_mem_nil

/-- What is reached from the second cell of a list is reached from the first. -/
theorem reaches_of_rest {k : Nat} {m x : Term} {rest : List Term} (hne : rest ≠ [])
    (h : Reaches (triples conditionNode (k + 1) rest) (head conditionNode (k + 1) rest) x) :
    Reaches (triples conditionNode k (m :: rest)) (conditionNode k) x := by
  have hrest : (⟨conditionNode k, Names.Rdf.rest, head conditionNode (k + 1) rest⟩ : Triple) ∈
      triples conditionNode k (m :: rest) := by simp [triples]
  have hsub : triples conditionNode (k + 1) rest ⊆ triples conditionNode k (m :: rest) :=
    fun t ht => List.mem_cons_of_mem _ (List.mem_cons_of_mem _ ht)
  exact (Reaches.of_mem hrest (head_isBlank (k + 1) hne)).trans (h.mono hsub)

/-- The cells of a list. -/
theorem hangsOff_triples (k : Nat) (members : List Term) :
    HangsOff (head conditionNode k members) (triples conditionNode k members) := by
  induction members generalizing k with
  | nil => exact fun t ht => absurd ht List.not_mem_nil
  | cons m rest ih =>
    intro t ht
    simp only [triples, List.mem_cons] at ht
    rcases ht with rfl | rfl | ht
    · exact .refl
    · exact .refl
    · exact reaches_of_rest (triples_ne_nil ht) (ih (k + 1) t ht)

/-- The members of a list. -/
theorem reaches_member {k : Nat} {members : List Term} {x : Term} (hx : x ∈ members)
    (hblank : x.isBlank) :
    Reaches (triples conditionNode k members) (head conditionNode k members) x := by
  induction members generalizing k with
  | nil => exact absurd hx List.not_mem_nil
  | cons m rest ih =>
    rcases List.mem_cons.mp hx with rfl | hx
    · have hfirst : (⟨conditionNode k, Names.Rdf.first, x⟩ : Triple) ∈
          triples conditionNode k (x :: rest) := List.mem_cons_self
      exact Reaches.of_mem hfirst hblank
    · exact reaches_of_rest (List.ne_nil_of_mem hx) (ih hx)

end Chain

/-! ### Expressions -/

namespace Expression

theorem node_isBlank {n : Nat} {e : Expression} (h : (emit n e).triples ≠ []) :
    (emit n e).node.isBlank := by
  cases e with
  | keyword word => exact absurd rfl h
  | not operand | all operands | any operands => rfl

/-- A node over a list of operands that each hang off a member. -/
theorem hangsOff_ofOperands {n : Nat} {property : String} {operands : Emissions}
    (h : ∀ t ∈ operands.triples,
      ∃ m ∈ operands.nodes, m.isBlank ∧ Reaches operands.triples m t.subject) :
    HangsOff (Emission.ofOperands n property operands).node
      (Emission.ofOperands n property operands).triples := by
  let cells := Chain.triples conditionNode operands.next operands.nodes
  let link : Triple :=
    ⟨conditionNode n, property, Chain.head conditionNode operands.next operands.nodes⟩
  have hlink (hne : operands.nodes ≠ []) : Reaches (operands.triples ++ link :: cells)
      (conditionNode n) (Chain.head conditionNode operands.next operands.nodes) :=
    Reaches.of_mem (t := link) (by simp) (Chain.head_isBlank _ hne)
  have hcells : cells ⊆ operands.triples ++ link :: cells :=
    fun t ht => List.mem_append_right _ (List.mem_cons_of_mem _ ht)
  show HangsOff (conditionNode n) (operands.triples ++ link :: cells)
  intro t ht
  rcases List.mem_append.mp ht with ht | ht
  · obtain ⟨m, hm, hblank, hreach⟩ := h t ht
    have hmember := (Chain.reaches_member (k := operands.next) hm hblank).mono hcells
    have hbelow := hreach.mono (List.subset_append_left _ (link :: cells))
    exact (hlink (List.ne_nil_of_mem hm)).trans (hmember.trans hbelow)
  · rcases List.mem_cons.mp ht with rfl | ht
    · exact .refl
    · have hcell := (Chain.hangsOff_triples operands.next operands.nodes t ht).mono hcells
      exact (hlink (Chain.triples_ne_nil ht)).trans hcell

mutual

/-- The triples of an expression hang off its node. -/
theorem emit_hangsOff (n : Nat) : (e : Expression) → HangsOff (emit n e).node (emit n e).triples
  | keyword _ => fun _ ht => absurd ht List.not_mem_nil
  | not operand => (emit_hangsOff (n + 1) operand).append_link node_isBlank
  | all operands | any operands => hangsOff_ofOperands (emitEach_hangsOff (n + 1) operands)

theorem emitEach_hangsOff (n : Nat) : (es : List Expression) →
    ∀ t ∈ (emitEach n es).triples, ∃ m ∈ (emitEach n es).nodes,
      m.isBlank ∧ Reaches (emitEach n es).triples m t.subject
  | [] => fun t ht => absurd ht List.not_mem_nil
  | e :: rest => by
    intro t ht
    rcases List.mem_append.mp ht with ht | ht
    · refine ⟨_, List.mem_cons_self, node_isBlank (List.ne_nil_of_mem ht), ?_⟩
      exact (emit_hangsOff n e t ht).mono (List.subset_append_left _ _)
    · obtain ⟨m, hm, hblank, hreach⟩ := emitEach_hangsOff _ rest t ht
      exact ⟨m, List.mem_cons_of_mem _ hm, hblank, hreach.mono (List.subset_append_right _ _)⟩

end

end Expression

/-! ### Blocks -/

namespace Scheme
variable {s : Scheme} {n : Nat} {body : BlockBody}

theorem body_hangsOff {fact : Fact} (h : s.body fact (conditionNode n) (n + 1) = .ok body) :
    HangsOff (conditionNode n) body.triples := by
  cases fact with
  | user e | environment e | device e =>
    obtain ⟨e, _, -, -, rfl⟩ := keywordBody_ok h
    exact (Expression.emit_hangsOff (n + 1) e).append_link Expression.node_isBlank
  | time window =>
    obtain ⟨_, _, _, _, -, -, -, rfl⟩ := timeBody_ok h
    exact .of_subject (by simp)
  | outdoor area =>
    obtain ⟨_, _, _, _, -, -, rfl⟩ := outdoorBody_ok h
    exact .of_subject (by simp)

theorem block_inCondition {fact : Fact} {ts : List Triple} {next : Nat}
    (h : s.block fact n = .ok (ts, next)) : ∀ t ∈ ts, s.InCondition ts t := by
  obtain ⟨body, hbody, -, rfl⟩ := block_ok h
  let ask : Term := .typed body.ask.toText Names.Context.askQuery
  let triples := (⟨s.root, fact.dimension.link, conditionNode n⟩ : Triple) ::
    ⟨conditionNode n, Names.Rdf.type, .named fact.dimension.type⟩ ::
      (body.triples ++ [⟨conditionNode n, Names.Context.condition, ask⟩])
  have hlink : ⟨s.root, fact.dimension.link, conditionNode n⟩ ∈ triples := List.mem_cons_self
  have hsub : body.triples ⊆ triples := fun t ht =>
    List.mem_cons_of_mem _ (List.mem_cons_of_mem _ (List.mem_append_left _ ht))
  intro t ht
  simp only [List.mem_cons, List.mem_append, List.not_mem_nil, or_false] at ht
  rcases ht with rfl | rfl | ht | rfl
  · exact .link _ _
  · exact .described hlink rfl .refl
  · exact .described hlink rfl ((body_hangsOff hbody t ht).mono hsub)
  · exact .described hlink rfl .refl

theorem blocks_inCondition {facts : List Fact} {ts : List Triple}
    (h : s.blocks n facts = .ok ts) : ∀ t ∈ ts, s.InCondition ts t := by
  induction facts generalizing n ts with
  | nil =>
    cases h
    exact fun t ht => absurd ht List.not_mem_nil
  | cons fact rest ih =>
    obtain ⟨us, next, vs, hus, hvs, rfl⟩ := blocks_cons_ok h
    intro t ht
    rcases List.mem_append.mp ht with ht | ht
    · exact (block_inCondition hus t ht).mono (List.subset_append_left _ _)
    · exact (ih hvs t ht).mono (List.subset_append_right _ _)

/-- A compiled condition is all condition. -/
theorem compile_inCondition {facts : Facts} {ts : List Triple} (h : s.compile facts = .ok ts) :
    ∀ t ∈ ts, s.InCondition ts t := by
  rcases compile_ok h with ⟨-, rfl⟩ | ⟨us, hus, rfl⟩
  · exact fun t ht => absurd ht List.not_mem_nil
  · intro t ht
    rcases List.mem_cons.mp ht with rfl | ht
    · exact .typing
    · exact (blocks_inCondition hus t ht).mono (List.subset_cons_self _ _)

end Scheme

end ContextPolicy
