import ContextPolicy.Proofs.Condition.RoundTrip

/-! The terms of a condition.

Apart from its root a condition is made of numbered blank nodes, of IRIs from a fixed list,
and of literals that are plain or have a datatype from the list (`Composed`). Each emitting
function keeps to that, from the expressions up to all that `compile` gives
(`composed_compile`). Nothing the user types becomes an IRI or a label. -/
namespace ContextPolicy

/-- The IRIs that conditions are written with. -/
def conditionIris : List String :=
  [Names.Rdf.type, Names.Rdf.first, Names.Rdf.rest, Names.Rdf.nil, Names.Xsd.decimal,
    Names.Context.accessCondition, Names.Context.condition, Names.Context.askQuery,
    Names.Context.expression, Names.Context.allOf, Names.Context.anyOf, Names.Context.not,
    Names.Context.begin, Names.Context.end, Names.Context.latitude, Names.Context.longitude,
    Names.Context.radius, Names.Context.unit] ++
  Dimension.all.map Dimension.link ++ Dimension.all.map Dimension.type

/-- The terms that stand in conditions beside the root. -/
inductive Term.OfCondition : Term → Prop
  | node (k : Nat) : OfCondition (conditionNode k)
  | named {iri : String} (h : iri ∈ conditionIris) : OfCondition (.named iri)
  | plain (value : String) : OfCondition (.plain value)
  | typed (value : String) {datatype : String} (h : datatype ∈ conditionIris) :
    OfCondition (.typed value datatype)

/-- A triple of a condition with this root. -/
structure Composed (root : Term) (t : Triple) : Prop where
  subject : t.subject = root ∨ ∃ k, t.subject = conditionNode k
  predicate : t.predicate ∈ conditionIris
  object : t.object.OfCondition

/-- A triple about a numbered node. -/
theorem Composed.of_node {root object : Term} {k : Nat} {q : String} (hq : q ∈ conditionIris)
    (hobject : object.OfCondition) : Composed root ⟨conditionNode k, q, object⟩ :=
  ⟨.inr ⟨k, rfl⟩, hq, hobject⟩

theorem link_mem_conditionIris (d : Dimension) : d.link ∈ conditionIris :=
  List.mem_append_left _ (List.mem_append_right _ (List.mem_map_of_mem d.mem_all))

theorem type_mem_conditionIris (d : Dimension) : d.type ∈ conditionIris :=
  List.mem_append_right _ (List.mem_map_of_mem d.mem_all)

/-- The characters of a numbered label: letters, and digits behind them. -/
theorem toList_conditionLabel (n : Nat) :
    ∃ ds, (conditionLabel n).toList = 'a' :: 'c' :: ds ∧ ∀ d ∈ ds, d.isDigit := by
  refine ⟨Nat.toDigits 10 n, by simp [conditionLabel, Nat.repr], fun d hd => ?_⟩
  exact Nat.isDigit_of_mem_toDigits (by decide) (by decide) hd

section
variable {root : Term}

/-! ### Expressions -/

namespace Chain

theorem ofCondition_head (k : Nat) (members : List Term) :
    (head conditionNode k members).OfCondition := by
  cases members with
  | nil => exact .named (by simp [conditionIris])
  | cons m rest => exact .node k

theorem composed_triples (k : Nat) {members : List Term} (h : ∀ m ∈ members, m.OfCondition) :
    ∀ t ∈ triples conditionNode k members, Composed root t := by
  induction members generalizing k with
  | nil => exact fun t ht => absurd ht List.not_mem_nil
  | cons m rest ih =>
    intro t ht
    simp only [triples, List.mem_cons] at ht
    rcases ht with rfl | rfl | ht
    · exact .of_node (by simp [conditionIris]) (h m List.mem_cons_self)
    · exact .of_node (by simp [conditionIris]) (ofCondition_head (k + 1) rest)
    · exact ih (k + 1) (fun x hx => h x (List.mem_cons_of_mem m hx)) t ht

end Chain

namespace Expression

theorem composed_ofOperands {n : Nat} {property : String} {operands : Emissions}
    (hproperty : property ∈ conditionIris) (hnodes : ∀ m ∈ operands.nodes, m.OfCondition)
    (h : ∀ t ∈ operands.triples, Composed root t) :
    ∀ t ∈ (Emission.ofOperands n property operands).triples, Composed root t := by
  intro t ht
  simp only [Emission.ofOperands, List.mem_append, List.mem_cons] at ht
  rcases ht with ht | rfl | ht
  · exact h t ht
  · exact .of_node hproperty (Chain.ofCondition_head _ _)
  · exact Chain.composed_triples _ hnodes t ht

theorem ofCondition_node (n : Nat) (e : Expression) : (emit n e).node.OfCondition := by
  cases e with
  | keyword word => exact .plain word
  | not operand | all operands | any operands => exact .node n

theorem ofCondition_nodes (n : Nat) (es : List Expression) :
    ∀ m ∈ (emitEach n es).nodes, m.OfCondition := by
  induction es generalizing n with
  | nil => exact fun m hm => absurd hm List.not_mem_nil
  | cons e rest ih =>
    intro m hm
    rcases List.mem_cons.mp hm with rfl | hm
    · exact ofCondition_node n e
    · exact ih _ m hm

mutual

theorem composed_emit (n : Nat) :
    (e : Expression) → ∀ t ∈ (emit n e).triples, Composed root t
  | keyword _ => fun t ht => absurd ht List.not_mem_nil
  | not operand => by
    intro t ht
    simp only [emit, Emission.ofOperand, List.mem_append, List.mem_singleton] at ht
    rcases ht with ht | rfl
    · exact composed_emit (n + 1) operand t ht
    · exact .of_node (by simp [conditionIris]) (ofCondition_node (n + 1) operand)
  | all operands | any operands =>
    composed_ofOperands (by simp [conditionIris]) (ofCondition_nodes (n + 1) operands)
      (composed_emitEach (n + 1) operands)

theorem composed_emitEach (n : Nat) :
    (es : List Expression) → ∀ t ∈ (emitEach n es).triples, Composed root t
  | [] => fun t ht => absurd ht List.not_mem_nil
  | e :: rest => by
    intro t ht
    simp only [emitEach, List.mem_append] at ht
    rcases ht with ht | ht
    · exact composed_emit n e t ht
    · exact composed_emitEach _ rest t ht

end

end Expression

end

/-! ### Blocks and conditions -/

namespace Scheme
variable {s : Scheme} {n : Nat} {root : Term}

theorem composed_body {fact : Fact} {body : BlockBody}
    (h : s.body fact (conditionNode n) (n + 1) = .ok body) :
    ∀ t ∈ body.triples, Composed root t := by
  cases fact with
  | user e | environment e | device e =>
    obtain ⟨e, _, -, -, rfl⟩ := keywordBody_ok h
    intro t ht
    rcases List.mem_append.mp ht with ht | ht
    · exact Expression.composed_emit (n + 1) e t ht
    · rw [List.mem_singleton.mp ht]
      exact .of_node (by simp [conditionIris]) (Expression.ofCondition_node (n + 1) e)
  | time window =>
    obtain ⟨_, _, _, _, -, -, -, rfl⟩ := timeBody_ok h
    simp only [List.forall_mem_cons]
    refine ⟨.of_node ?_ (.plain _), .of_node ?_ (.plain _), by simp⟩ <;> simp [conditionIris]
  | outdoor area =>
    obtain ⟨_, _, _, _, -, -, rfl⟩ := outdoorBody_ok h
    simp only [List.forall_mem_cons]
    have hdecimal : Names.Xsd.decimal ∈ conditionIris := by simp [conditionIris]
    refine ⟨.of_node ?_ (.typed _ hdecimal), .of_node ?_ (.typed _ hdecimal),
      .of_node ?_ (.typed _ hdecimal), .of_node ?_ (.plain _), by simp⟩ <;> simp [conditionIris]

theorem composed_block {fact : Fact} {ts : List Triple} {next : Nat}
    (h : s.block fact n = .ok (ts, next)) : ∀ t ∈ ts, Composed s.root t := by
  obtain ⟨body, hbody, -, rfl⟩ := block_ok h
  intro t ht
  simp only [List.mem_cons, List.mem_append, List.not_mem_nil, or_false] at ht
  rcases ht with rfl | rfl | ht | rfl
  · exact ⟨.inl rfl, link_mem_conditionIris _, .node n⟩
  · exact .of_node (by simp [conditionIris]) (.named (type_mem_conditionIris _))
  · exact composed_body hbody t ht
  · exact .of_node (by simp [conditionIris]) (.typed _ (by simp [conditionIris]))

theorem composed_blocks {facts : List Fact} {ts : List Triple}
    (h : s.blocks n facts = .ok ts) : ∀ t ∈ ts, Composed s.root t := by
  induction facts generalizing n ts with
  | nil =>
    cases h
    exact fun t ht => absurd ht List.not_mem_nil
  | cons fact rest ih =>
    obtain ⟨us, next, vs, hus, hvs, rfl⟩ := blocks_cons_ok h
    intro t ht
    rcases List.mem_append.mp ht with ht | ht
    · exact composed_block hus t ht
    · exact ih hvs t ht

theorem composed_compile {facts : Facts} {ts : List Triple} (h : s.compile facts = .ok ts) :
    ∀ t ∈ ts, Composed s.root t := by
  rcases compile_ok h with ⟨-, rfl⟩ | ⟨us, hus, rfl⟩
  · exact fun t ht => absurd ht List.not_mem_nil
  · intro t ht
    rcases List.mem_cons.mp ht with rfl | ht
    · have htype : Names.Rdf.type ∈ conditionIris := by simp [conditionIris]
      exact ⟨.inl rfl, htype, .named (by simp [conditionIris])⟩
    · exact composed_blocks hus t ht

end Scheme

end ContextPolicy
