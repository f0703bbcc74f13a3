import ContextPolicy.Proofs.Condition.Answers
import ContextPolicy.Proofs.Condition.Reads

/-! Expressions, written and read.

An expression takes numbers for its nodes from one on and hands on the next
(`emit_spans`), so operands never share a node. Where the triples of an expression are
answered for, its node stands for it again: `reads_emit` follows the writer down, one case
for each operator, with the cells of a list read by `lists_triples`. -/
namespace ContextPolicy

/-! ### Numbers -/

theorem Chain.triples_spans (k : Nat) (members : List Term) :
    Spans k (k + members.length) (Chain.triples conditionNode k members) := by
  induction members generalizing k with
  | nil => exact Spans.nil
  | cons m rest ih =>
    intro t ht hcontent
    simp only [Chain.triples, List.mem_cons] at ht
    rcases ht with rfl | rfl | ht
    · exact ⟨k, Nat.le_refl k, by simp, rfl⟩
    · exact ⟨k, Nat.le_refl k, by simp, rfl⟩
    · obtain ⟨j, hkj, hj, hsubject⟩ := ih (k + 1) t ht hcontent
      refine ⟨j, by omega, ?_, hsubject⟩
      rw [List.length_cons]
      omega

namespace Expression

mutual

theorem le_next_emit (n : Nat) : (e : Expression) → n ≤ (emit n e).next
  | keyword _ => Nat.le_refl n
  | not operand => by
    have h := le_next_emit (n + 1) operand
    simp only [emit, Emission.ofOperand]
    omega
  | all operands | any operands => by
    have h := le_next_emitEach (n + 1) operands
    simp only [emit, Emission.ofOperands]
    omega

theorem le_next_emitEach (n : Nat) : (es : List Expression) → n ≤ (emitEach n es).next
  | [] => Nat.le_refl n
  | e :: rest => Nat.le_trans (le_next_emit n e) (le_next_emitEach _ rest)

end

/-- A node, and what is numbered behind it. -/
theorem spans_ofOperands {n : Nat} {property : String} {operands : Emissions}
    (hle : n + 1 ≤ operands.next) (h : Spans (n + 1) operands.next operands.triples) :
    Spans n (Emission.ofOperands n property operands).next
      (Emission.ofOperands n property operands).triples := by
  have hcells := Chain.triples_spans operands.next operands.nodes
  refine Spans.append (h.mono (by omega) (by simp [Emission.ofOperands])) ?_
  intro t ht hcontent
  rcases List.mem_cons.mp ht with rfl | ht
  · refine ⟨n, Nat.le_refl n, ?_, rfl⟩
    simp only [Emission.ofOperands]
    omega
  · exact (hcells.mono (by omega) (Nat.le_refl _)) t ht hcontent

mutual

/-- The nodes of an expression have the numbers that it takes. -/
theorem emit_spans (n : Nat) : (e : Expression) → Spans n (emit n e).next (emit n e).triples
  | keyword _ => Spans.nil
  | not operand => by
    have hle := le_next_emit (n + 1) operand
    refine Spans.append ((emit_spans (n + 1) operand).mono (by omega) (Nat.le_refl _)) ?_
    intro t ht _
    rw [List.mem_singleton.mp ht]
    exact ⟨n, Nat.le_refl n, hle, rfl⟩
  | all operands | any operands =>
    spans_ofOperands (le_next_emitEach (n + 1) operands) (emitEach_spans (n + 1) operands)

theorem emitEach_spans (n : Nat) :
    (es : List Expression) → Spans n (emitEach n es).next (emitEach n es).triples
  | [] => Spans.nil
  | e :: rest =>
    ((emit_spans n e).mono (Nat.le_refl n) (le_next_emitEach _ rest)).append
      ((emitEach_spans (emit n e).next rest).mono (le_next_emit n e) (Nat.le_refl _))

end

/-! ### Properties -/

theorem content_triples (k : Nat) (members : List Term) :
    ∀ t ∈ Chain.triples conditionNode k members, isContent t.predicate := by
  induction members generalizing k with
  | nil => exact fun t ht => absurd ht List.not_mem_nil
  | cons m rest ih =>
    intro t ht
    simp only [Chain.triples, List.mem_cons] at ht
    rcases ht with rfl | rfl | ht
    · exact (by decide : isContent Names.Rdf.first)
    · exact (by decide : isContent Names.Rdf.rest)
    · exact ih (k + 1) t ht

theorem content_ofOperands {n : Nat} {property : String} {operands : Emissions}
    (hproperty : isContent property) (h : ∀ t ∈ operands.triples, isContent t.predicate) :
    ∀ t ∈ (Emission.ofOperands n property operands).triples, isContent t.predicate := by
  intro t ht
  simp only [Emission.ofOperands, List.mem_append, List.mem_cons] at ht
  rcases ht with ht | rfl | ht
  · exact h t ht
  · exact hproperty
  · exact content_triples _ _ t ht

mutual

/-- The triples of an expression are all content. -/
theorem emit_content (n : Nat) :
    (e : Expression) → ∀ t ∈ (emit n e).triples, isContent t.predicate
  | keyword _ => fun t ht => absurd ht List.not_mem_nil
  | not operand => by
    intro t ht
    simp only [emit, Emission.ofOperand, List.mem_append, List.mem_singleton] at ht
    rcases ht with ht | rfl
    · exact emit_content (n + 1) operand t ht
    · exact (by decide : isContent Names.Context.not)
  | all operands => content_ofOperands (by decide) (emitEach_content (n + 1) operands)
  | any operands => content_ofOperands (by decide) (emitEach_content (n + 1) operands)

theorem emitEach_content (n : Nat) :
    (es : List Expression) → ∀ t ∈ (emitEach n es).triples, isContent t.predicate
  | [] => fun t ht => absurd ht List.not_mem_nil
  | e :: rest => by
    intro t ht
    simp only [emitEach, List.mem_append] at ht
    rcases ht with ht | ht
    · exact emit_content n e t ht
    · exact emitEach_content _ rest t ht

end

end Expression

/-! ### Reading back -/

namespace Graph.Operator

theorem isContent_property (o : Operator) : isContent o.property := by
  cases o <;> decide

theorem property_injective : Function.Injective property := by
  intro o p h
  cases o <;> cases p <;> first | rfl | exact absurd h (by decide)

end Graph.Operator

section Read
variable {g : Graph} {ρ : String → String}

/-- The list that was written is read. -/
theorem lists_triples (k : Nat) (members : List Term)
    (h : g.Answers ρ (Chain.triples conditionNode k members)) :
    g.Lists ((Chain.head conditionNode k members).rename ρ) (members.map (Term.rename ρ)) := by
  have hfirst : isContent Names.Rdf.first := by decide
  have hrest : isContent Names.Rdf.rest := by decide
  have hne : Names.Rdf.first ≠ Names.Rdf.rest := by decide
  induction members generalizing k with
  | nil => exact .nil
  | cons m rest ih =>
    have hcell := h _ List.mem_cons_self hfirst
    have htail : g.Answers ρ (Chain.triples conditionNode (k + 1) rest) := by
      have hsplit : g.Answers ρ ([⟨conditionNode k, Names.Rdf.first, m⟩,
          ⟨conditionNode k, Names.Rdf.rest, Chain.head conditionNode (k + 1) rest⟩] ++
            Chain.triples conditionNode (k + 1) rest) := h
      refine hsplit.right
        (Spans.apart (spans_node ?_) (Chain.triples_spans (k + 1) rest) (Nat.le_refl _))
      intro t ht _
      simp only [List.mem_cons, List.not_mem_nil, or_false] at ht
      rcases ht with rfl | rfl <;> rfl
    refine .cons (fun heq => nomatch heq) ?_ ?_ (ih (k + 1) htail)
    · refine (hcell _ hfirst).trans ?_
      rw [Chain.triples, earliest_cons_of_eq rfl rfl]
      rfl
    · refine (hcell _ hrest).trans ?_
      rw [Chain.triples, earliest_cons_of_ne fun _ => hne, earliest_cons_of_eq rfl rfl]
      rfl

/-- A node that is the subject of one operator's property alone has this operator. -/
theorem operator?_of_answers {ts : List Triple} {x y : Term} {o : Graph.Operator}
    (h : g.Answers ρ ts) (hmem : ⟨x, o.property, y⟩ ∈ ts)
    (honly : ∀ t ∈ ts, t.subject = x → t = ⟨x, o.property, y⟩) :
    g.operator? (x.rename ρ) = some (o, y.rename ρ) := by
  have hlookup : ∀ p : Graph.Operator, g.firstObject (x.rename ρ) p.property =
      if p = o then some (y.rename ρ) else none := by
    intro p
    rw [h _ hmem o.isContent_property _ p.isContent_property]
    by_cases hp : p = o
    · rw [if_pos hp, hp, earliest_eq_some hmem fun t ht hx _ => by rw [honly t ht hx]]
      rfl
    · rw [if_neg hp, earliest_eq_none, Option.map_none]
      intro t ht hx heq
      rw [honly t ht hx] at heq
      exact hp (Graph.Operator.property_injective heq).symm
  rw [Graph.operator?]
  cases o <;> simp [hlookup]

/-- A node numbered in front of all others is none of their subjects. -/
theorem subject_ne_of_spans {ts : List Triple} {n a b : Nat} (h : Spans a b ts) (hn : n < a) :
    ∀ t ∈ ts, isContent t.predicate → t.subject ≠ conditionNode n := by
  intro t ht hcontent heq
  obtain ⟨k, hk, -, hsubject⟩ := h t ht hcontent
  rw [hsubject] at heq
  have hkn := conditionNode_injective heq
  omega

/-- A node over a list of operands: its operator, its operands, and what is answered for them. -/
theorem answers_ofOperands {n : Nat} {o : Graph.Operator} {operands : Emissions}
    (h : g.Answers ρ (Emission.ofOperands n o.property operands).triples)
    (hle : n + 1 ≤ operands.next) (hspans : Spans (n + 1) operands.next operands.triples) :
    (∃ list, g.operator? ((conditionNode n).rename ρ) = some (o, list) ∧
      g.decode list = .ok (operands.nodes.map (Term.rename ρ))) ∧
    g.Answers ρ operands.triples := by
  have hcells := Chain.triples_spans operands.next operands.nodes
  have hlink : Spans n (n + 1)
      [⟨conditionNode n, o.property, Chain.head conditionNode operands.next operands.nodes⟩] :=
    spans_node fun t ht _ => by rw [List.mem_singleton.mp ht]
  have hafter : Apart operands.triples (⟨conditionNode n, o.property,
      Chain.head conditionNode operands.next operands.nodes⟩ ::
        Chain.triples conditionNode operands.next operands.nodes) := by
    intro u hu v hv hcu hcv
    rcases List.mem_cons.mp hv with rfl | hv
    · exact subject_ne_of_spans hspans (Nat.lt_succ_self n) u hu hcu
    · exact hspans.apart hcells (Nat.le_refl _) u hu v hv hcu hcv
  have hrest := h.right hafter
  have hsplit : g.Answers ρ ([⟨conditionNode n, o.property,
      Chain.head conditionNode operands.next operands.nodes⟩] ++
        Chain.triples conditionNode operands.next operands.nodes) := hrest
  refine ⟨⟨_, operator?_of_answers hrest List.mem_cons_self ?_, ?_⟩, h.left hafter⟩
  · intro t ht hsubject
    rcases List.mem_cons.mp ht with rfl | ht
    · rfl
    · have hne := subject_ne_of_spans hcells (by omega : n < operands.next) t ht
      exact absurd hsubject (hne (Expression.content_triples _ _ t ht))
  · exact (lists_triples _ _ (hsplit.right (hlink.apart hcells hle))).decode

mutual

/-- The node of an expression stands for it. -/
theorem reads_emit (n : Nat) : (e : Expression) → g.Answers ρ (e.emit n).triples →
    g.Reads ((e.emit n).node.rename ρ) e
  | .keyword _, _ => .keyword
  | .not operand, h => by
    have hspans := Expression.emit_spans (n + 1) operand
    have hcontent := Expression.emit_content (n + 1) operand
    have hapart : Apart (operand.emit (n + 1)).triples
        [⟨conditionNode n, Names.Context.not, (operand.emit (n + 1)).node⟩] := by
      intro u hu v hv hcu _
      rw [List.mem_singleton.mp hv]
      exact subject_ne_of_spans hspans (Nat.lt_succ_self n) u hu hcu
    refine .not rfl (operator?_of_answers (h.right hapart) (List.mem_singleton.mpr rfl) ?_)
      (reads_emit (n + 1) operand (h.left hapart))
    exact fun t ht _ => List.mem_singleton.mp ht
  | .all operands, h => by
    obtain ⟨⟨list, hop, hlist⟩, hoperands⟩ := answers_ofOperands (o := .all) h
      (Expression.le_next_emitEach (n + 1) operands) (Expression.emitEach_spans (n + 1) operands)
    exact .all rfl hop hlist (readsEach_emitEach (n + 1) operands hoperands)
  | .any operands, h => by
    obtain ⟨⟨list, hop, hlist⟩, hoperands⟩ := answers_ofOperands (o := .any) h
      (Expression.le_next_emitEach (n + 1) operands) (Expression.emitEach_spans (n + 1) operands)
    exact .any rfl hop hlist (readsEach_emitEach (n + 1) operands hoperands)

theorem readsEach_emitEach (n : Nat) : (es : List Expression) →
    g.Answers ρ (Expression.emitEach n es).triples →
    g.ReadsEach ((Expression.emitEach n es).nodes.map (Term.rename ρ)) es
  | [], _ => .nil
  | e :: rest, h => by
    have hapart := (Expression.emit_spans n e).apart
      (Expression.emitEach_spans (e.emit n).next rest) (Nat.le_refl _)
    exact .cons (reads_emit n e (h.left hapart)) (readsEach_emitEach _ rest (h.right hapart))

end

end Read

end ContextPolicy
