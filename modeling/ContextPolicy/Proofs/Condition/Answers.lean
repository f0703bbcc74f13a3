import Std.Data.String.ToNat
import ContextPolicy.Condition.Emission
import ContextPolicy.Proofs.Graph.Earliest

/-! Lookups in the triples of a condition.

The triples of a condition stand in a graph among others, and their blank nodes may bear
other labels there. What counts is how lookups come out: `Answers` says that the graph
answers, for the nodes that a list of triples speaks of and for the properties that facts
are read from, as the list alone would. Types and links are left out, for the root has them,
and the root may be one of the blank nodes itself; so are the queries, which nothing reads.

Lists of triples about different nodes do not disturb each other (`Apart`), so what answers
for both answers for each: `Answers.left` and `Answers.right`. Nodes are told apart by their
numbers (`Spans`). -/
namespace ContextPolicy

/-- A term with another label, if it has one. -/
def Term.rename (ρ : String → String) : Term → Term
  | .blank label => .blank (ρ label)
  | t => t

theorem Term.rename_id (t : Term) : t.rename id = t := by
  cases t <;> rfl

/-! ### Content -/

/-- Whether a property is one that facts can be read from: it neither types a node, nor links
a root to a block, nor leads to the query of a block. -/
def isContent (q : String) : Bool :=
  q != Names.Rdf.type && q != Names.Context.condition && Dimension.all.all fun d => d.link != q

theorem isContent_link (d : Dimension) : isContent d.link = false := by
  cases d <;> decide

/-- The graph answers for the subjects of content as the triples do, under other labels. -/
def Graph.Answers (g : Graph) (ρ : String → String) (ts : List Triple) : Prop :=
  ∀ t ∈ ts, isContent t.predicate → ∀ q, isContent q →
    g.firstObject (t.subject.rename ρ) q = (earliest ts t.subject q).map (Term.rename ρ)

/-- No subject has content in both lists. -/
def Apart (us vs : List Triple) : Prop :=
  ∀ u ∈ us, ∀ v ∈ vs, isContent u.predicate → isContent v.predicate → u.subject ≠ v.subject

section Answers
variable {g : Graph} {ρ : String → String} {us vs : List Triple} {t : Triple}

theorem Graph.Answers.left (h : g.Answers ρ (us ++ vs)) (hapart : Apart us vs) :
    g.Answers ρ us := by
  intro u hu hcontent q hq
  have hnone : earliest vs u.subject q = none := by
    refine earliest_eq_none fun v hv hsubject hpredicate => ?_
    exact hapart u hu v hv hcontent (hpredicate ▸ hq) hsubject.symm
  rw [h u (List.mem_append_left vs hu) hcontent q hq, earliest_append, hnone, Option.or_none]

theorem Graph.Answers.right (h : g.Answers ρ (us ++ vs)) (hapart : Apart us vs) :
    g.Answers ρ vs := by
  intro v hv hcontent q hq
  have hnone : earliest us v.subject q = none := by
    refine earliest_eq_none fun u hu hsubject hpredicate => ?_
    exact hapart u hu v hv (hpredicate ▸ hq) hcontent hsubject
  rw [h v (List.mem_append_right us hv) hcontent q hq, earliest_append, hnone, Option.none_or]

/-- A triple without content does not count. -/
theorem Graph.Answers.tail (h : g.Answers ρ (t :: us)) (ht : isContent t.predicate = false) :
    g.Answers ρ us := by
  have hsplit : g.Answers ρ ([t] ++ us) := h
  refine hsplit.right fun u hu v _ hcontent => ?_
  rw [List.mem_singleton.mp hu, ht] at hcontent
  cases hcontent

end Answers

/-! ### Numbers of nodes -/

theorem conditionLabel_injective : Function.Injective conditionLabel := by
  intro m n h
  have hrepr : Nat.repr m = Nat.repr n := (String.append_right_inj "ac").mp h
  exact Nat.repr_inj.mp hrepr

theorem conditionNode_injective : Function.Injective conditionNode := by
  intro m n h
  exact conditionLabel_injective (Term.blank.inj h)

/-- The subjects of content are nodes with numbers from `a` on and below `b`. -/
def Spans (a b : Nat) (ts : List Triple) : Prop :=
  ∀ t ∈ ts, isContent t.predicate → ∃ k, a ≤ k ∧ k < b ∧ t.subject = conditionNode k

section Spans
variable {a b c d : Nat} {us vs : List Triple}

theorem Spans.nil : Spans a b [] :=
  fun _ ht => absurd ht List.not_mem_nil

theorem Spans.append (hu : Spans a b us) (hv : Spans a b vs) : Spans a b (us ++ vs) := by
  intro t ht
  rcases List.mem_append.mp ht with ht | ht
  · exact hu t ht
  · exact hv t ht

theorem Spans.mono (h : Spans a b us) (hca : c ≤ a) (hbd : b ≤ d) : Spans c d us := by
  intro t ht hcontent
  obtain ⟨k, hak, hkb, hk⟩ := h t ht hcontent
  exact ⟨k, Nat.le_trans hca hak, Nat.lt_of_lt_of_le hkb hbd, hk⟩

/-- Triples about one node. -/
theorem spans_node {k : Nat} (h : ∀ t ∈ us, isContent t.predicate → t.subject = conditionNode k) :
    Spans k (k + 1) us :=
  fun t ht hcontent => ⟨k, Nat.le_refl k, Nat.lt_succ_self k, h t ht hcontent⟩

theorem Spans.apart (hu : Spans a b us) (hv : Spans c d vs) (hbc : b ≤ c) : Apart us vs := by
  intro u hmu v hmv hcu hcv heq
  obtain ⟨j, -, hj, hju⟩ := hu u hmu hcu
  obtain ⟨k, hk, -, hkv⟩ := hv v hmv hcv
  rw [hju, hkv] at heq
  have hjk := conditionNode_injective heq
  omega

end Spans

end ContextPolicy
