import Mathlib.Algebra.Order.Group.Multiset
import Mathlib.Data.List.Forall2
import Mathlib.Data.Option.Defs
import ContextPolicy.Proofs.Condition.RoundTrip

/-! Conditions for the same facts, with keywords in another case.

Two runs of the compiler are followed side by side, over facts that differ in the case of
keywords only. What a keyword asks of a context does not depend on its case, so the clauses are
the same or there is none on either side (`clause_alike`). What is written for an expression is
the same but for the keywords themselves (`emit_respelled`): triples that hold one hold it as
it is spelled in their facts. `Along` pairs off two lists and collects the pairs of keywords
that it comes across, in whatever order, and `Alike` pairs off the outcomes of the two runs. -/
namespace ContextPolicy

/-! ### Facts in another case -/

/-- The same word in lower case. -/
def Text.Recased (v w : String) : Prop :=
  lowercase v = lowercase w

instance (v w : String) : Decidable (Text.Recased v w) :=
  inferInstanceAs (Decidable (_ = _))

namespace Expression

mutual

/-- The same expression, but for the case of its keywords. -/
inductive Respelled : Expression → Expression → Prop
  | keyword {v w : String} (h : Text.Recased v w) : Respelled (.keyword v) (.keyword w)
  | not {e f : Expression} (h : Respelled e f) : Respelled (.not e) (.not f)
  | all {es fs : List Expression} (h : RespelledEach es fs) : Respelled (.all es) (.all fs)
  | any {es fs : List Expression} (h : RespelledEach es fs) : Respelled (.any es) (.any fs)

inductive RespelledEach : List Expression → List Expression → Prop
  | nil : RespelledEach [] []
  | cons {e f : Expression} {es fs : List Expression} (h : Respelled e f)
      (hs : RespelledEach es fs) : RespelledEach (e :: es) (f :: fs)

end

mutual

theorem Respelled.keywords {e f : Expression} :
    e.Respelled f → List.Forall₂ Text.Recased e.keywords f.keywords
  | .keyword h => .cons h .nil
  | .not h => h.keywords
  | .all h | .any h => h.keywordsOfAll

theorem RespelledEach.keywordsOfAll {es fs : List Expression} :
    RespelledEach es fs →
      List.Forall₂ Text.Recased (Expression.keywordsOfAll es) (Expression.keywordsOfAll fs)
  | .nil => .nil
  | .cons h hs => List.rel_append h.keywords hs.keywordsOfAll

end

end Expression

namespace Fact

/-- The keywords of a fact, as they are spelled in it. -/
def keywords (fact : Fact) : List String :=
  fact.expression?.join.elim [] Expression.keywords

/-- The same fact, but for the case of its keywords. -/
inductive Respelled : Fact → Fact → Prop
  | user {e f : Option Expression} (h : Option.Rel Expression.Respelled e f) :
      Respelled (.user e) (.user f)
  | time (window : TimeWindow) : Respelled (.time window) (.time window)
  | outdoor (area : OutdoorArea) : Respelled (.outdoor area) (.outdoor area)
  | environment {e f : Option Expression} (h : Option.Rel Expression.Respelled e f) :
      Respelled (.environment e) (.environment f)
  | device {e f : Option Expression} (h : Option.Rel Expression.Respelled e f) :
      Respelled (.device e) (.device f)

theorem Respelled.dimension {fact other : Fact} (h : fact.Respelled other) :
    fact.dimension = other.dimension := by
  cases h <;> rfl

theorem Respelled.keywords {fact other : Fact} (h : fact.Respelled other) :
    List.Forall₂ Text.Recased fact.keywords other.keywords := by
  cases h with
  | time window | outdoor area => exact .nil
  | user h | environment h | device h =>
    cases h with
    | none => exact .nil
    | some h => exact h.keywords

end Fact

namespace Facts

/-- The keywords of the facts, one dimension after the other. -/
def keywords (facts : Facts) : List String :=
  facts.toList.flatMap Fact.keywords

/-- The same facts, but for the case of their keywords. -/
def Respelled (facts others : Facts) : Prop :=
  ∀ d, Option.Rel Fact.Respelled (facts.get? d) (others.get? d)

theorem Respelled.toList {facts others : Facts} (h : facts.Respelled others) :
    List.Forall₂ Fact.Respelled facts.toList others.toList := by
  rw [toList_eq_filterMap, toList_eq_filterMap]
  induction Dimension.all with
  | nil => exact .nil
  | cons d rest ih =>
    have hd := h d
    rw [List.filterMap_cons, List.filterMap_cons]
    revert hd
    generalize facts.get? d = o
    generalize others.get? d = o'
    intro hd
    cases hd with
    | none => exact ih
    | some hd => exact .cons hd ih

theorem isEmpty_eq (facts : Facts) : facts.isEmpty = facts.toList.isEmpty := by
  rw [isEmpty, toList, List.isEmpty_map]

theorem Respelled.isEmpty {facts others : Facts} (h : facts.Respelled others) :
    facts.isEmpty = others.isEmpty := by
  rw [isEmpty_eq, isEmpty_eq, Bool.eq_iff_iff, List.isEmpty_iff_length_eq_zero,
    List.isEmpty_iff_length_eq_zero, h.toList.length_eq]

end Facts

/-- The keywords of two facts, each with the one that stands in its place. -/
theorem keywords_of_respelled {facts others : List Fact}
    (h : List.Forall₂ Fact.Respelled facts others) :
    List.Forall₂ Text.Recased (facts.flatMap Fact.keywords) (others.flatMap Fact.keywords) := by
  induction h with
  | nil => exact .nil
  | cons hfact _ ih =>
    rw [List.flatMap_cons, List.flatMap_cons]
    exact List.rel_append hfact.keywords ih

/-! ### Outcomes side by side -/

section Alike
variable {α β γ δ : Type} {R : α → β → Prop} {S : γ → δ → Prop}

/-- Both runs give a result, and the results are related, or both fail with the same field. -/
inductive Alike (R : α → β → Prop) :
    Except ValidationFault α → Except ValidationFault β → Prop
  | ok {a : α} {b : β} (h : R a b) : Alike R (.ok a) (.ok b)
  | error {e e' : ValidationFault} (h : e.field = e'.field) : Alike R (.error e) (.error e')

namespace Alike

theorem bind {x : Except ValidationFault α} {y : Except ValidationFault β}
    {f : α → Except ValidationFault γ} {g : β → Except ValidationFault δ} (h : Alike R x y)
    (hstep : ∀ a b, R a b → Alike S (f a) (g b)) : Alike S (x >>= f) (y >>= g) := by
  cases h with
  | ok h => exact hstep _ _ h
  | error h => exact .error h

theorem map {x : Except ValidationFault α} {y : Except ValidationFault β} {f : α → γ} {g : β → δ}
    (h : Alike R x y) (hstep : ∀ a b, R a b → S (f a) (g b)) :
    Alike S (x.map f) (y.map g) := by
  cases h with
  | ok h => exact .ok (hstep _ _ h)
  | error h => exact .error h

theorem self {R : α → α → Prop} {x : Except ValidationFault α} (h : ∀ a, x = .ok a → R a a) :
    Alike R x x := by
  cases x with
  | ok a => exact .ok (h a rfl)
  | error e => exact .error rfl

end Alike

end Alike

/-! ### Lists side by side -/

section Along
variable {α : Type} {R : Multiset (String × String) → α → α → Prop}
  {ps qs : Multiset (String × String)} {xs ys us vs : List α}

/-- Two lists are related member by member, with these pairs of keywords between them. -/
inductive Along (R : Multiset (String × String) → α → α → Prop) :
    Multiset (String × String) → List α → List α → Prop
  | nil : Along R 0 [] []
  | cons {ps qs : Multiset (String × String)} {x y : α} {xs ys : List α} (h : R ps x y)
      (hs : Along R qs xs ys) : Along R (ps + qs) (x :: xs) (y :: ys)

namespace Along

theorem length_eq (h : Along R ps xs ys) : xs.length = ys.length := by
  induction h with
  | nil => rfl
  | cons _ _ ih => rw [List.length_cons, List.length_cons, ih]

theorem append (h : Along R ps xs ys) (h' : Along R qs us vs) :
    Along R (ps + qs) (xs ++ us) (ys ++ vs) := by
  induction h with
  | nil => rwa [zero_add]
  | cons h _ ih =>
    rw [add_assoc]
    exact .cons h ih

theorem single {x y : α} (h : R ps x y) : Along R ps [x] [y] := by
  rw [← add_zero ps]
  exact .cons h .nil

/-- A member on both sides without a keyword. -/
theorem cons_same {x : α} (hs : Along R ps xs ys) (h : R 0 x x) :
    Along R ps (x :: xs) (x :: ys) := by
  rw [← zero_add ps]
  exact .cons h hs

theorem append_same {x : α} (hs : Along R ps xs ys) (h : R 0 x x) :
    Along R ps (xs ++ [x]) (ys ++ [x]) := by
  rw [← add_zero ps]
  exact hs.append (.single h)

theorem self (h : ∀ x ∈ xs, R 0 x x) : Along R 0 xs xs := by
  induction xs with
  | nil => exact .nil
  | cons x rest ih =>
    obtain ⟨hx, hrest⟩ := List.forall_mem_cons.mp h
    exact (ih hrest).cons_same hx

end Along

end Along

/-! ### Clauses -/

namespace Scheme
variable {s : Scheme} {d : Dimension}

theorem lookup_recased {v w : String} (h : Text.Recased v w) :
    s.vocabulary.lookup d v = s.vocabulary.lookup d w := by
  rw [Vocabulary.lookup, Vocabulary.lookup, h]

/-- What is asked for a keyword, or that it is unknown in the dimension. -/
theorem keywordClause_alike {v w : String} (h : Text.Recased v w) :
    Alike Eq (s.keywordClause d v) (s.keywordClause d w) := by
  rw [keywordClause, keywordClause, lookup_recased h]
  cases s.vocabulary.lookup d w with
  | none => exact .error rfl
  | some b => exact .ok rfl

mutual

/-- What a context has to hold does not depend on the case of keywords. -/
theorem clause_alike {e f : Expression} :
    e.Respelled f → Alike Eq (s.clause d e) (s.clause d f)
  | .keyword h => keywordClause_alike h
  | .not h => by
    rw [clause, clause]
    exact (clause_alike h).map fun _ _ => congrArg Ask.Clause.notExists
  | .all h => by
    rw [clause, clause]
    exact (clauses_alike h).map fun _ _ => congrArg Ask.Clause.group
  | .any h => by
    rw [clause, clause]
    exact (clauses_alike h).map fun _ _ => congrArg Ask.Clause.union

theorem clauses_alike {es fs : List Expression} :
    Expression.RespelledEach es fs → Alike Eq (s.clauses d es) (s.clauses d fs)
  | .nil => .ok rfl
  | .cons h hs => by
    rw [clauses, clauses]
    refine (clause_alike h).bind fun c c' hc => (clauses_alike hs).bind fun cs cs' hcs => ?_
    rw [hc, hcs]
    exact .ok rfl

end

/-- What the vocabulary lacks of some keywords, it lacks of the others. -/
theorem find?_recased {vs ws : List String} (h : List.Forall₂ Text.Recased vs ws) :
    Option.Rel Text.Recased (vs.find? fun v => (s.vocabulary.lookup d v).isNone)
      (ws.find? fun w => (s.vocabulary.lookup d w).isNone) := by
  induction h with
  | nil => exact .none
  | @cons v w vs ws hword _ ih =>
    rw [List.find?_cons, List.find?_cons, lookup_recased hword]
    cases (s.vocabulary.lookup d w).isNone with
    | true => exact .some hword
    | false => exact ih

end Scheme

/-! ### Triples -/

/-- The properties whose values may be keywords. -/
def keywordProperties : List String :=
  [Names.Context.expression, Names.Context.not, Names.Rdf.first]

/-- The keyword that a triple holds. -/
def Triple.keyword? (t : Triple) : Option String :=
  if t.predicate ∈ keywordProperties then t.object.literalValue? else none

/-- The same triple, and no keyword in it, or two triples that hold the keywords of a pair and
are the same otherwise. -/
inductive Triple.Respelled : Multiset (String × String) → Triple → Triple → Prop
  | same {t : Triple} (h : t.keyword? = none) : Respelled 0 t t
  | keyword {x : Term} {q v w : String} (hq : q ∈ keywordProperties) :
      Respelled {(v, w)} ⟨x, q, .plain v⟩ ⟨x, q, .plain w⟩

/-- The same node, or the keywords of a pair. -/
inductive Term.Respelled : Multiset (String × String) → Term → Term → Prop
  | same {x : Term} (h : x.isLiteral = false) : Respelled 0 x x
  | keyword (v w : String) : Respelled {(v, w)} (.plain v) (.plain w)

section Triples
variable {ps : Multiset (String × String)} {x y z : Term} {q : String}

theorem Triple.Respelled.of_property {t : Triple} (h : t.predicate ∉ keywordProperties) :
    Triple.Respelled 0 t t :=
  .same (if_neg h)

theorem Term.Respelled.link (h : Term.Respelled ps x y) (hq : q ∈ keywordProperties) :
    Triple.Respelled ps ⟨z, q, x⟩ ⟨z, q, y⟩ := by
  cases h with
  | keyword v w => exact .keyword hq
  | same h =>
    refine .same ((if_pos hq).trans ?_)
    cases x with
    | named iri | blank label => rfl
    | literal value datatype lang => cases h

/-- Lists have the same cells, and the members are in their places. -/
theorem Chain.along_triples {xs ys : List Term} (h : Along Term.Respelled ps xs ys) (k : Nat) :
    head conditionNode k xs = head conditionNode k ys ∧
      Along Triple.Respelled ps (triples conditionNode k xs) (triples conditionNode k ys) := by
  induction h generalizing k with
  | nil => exact ⟨rfl, .nil⟩
  | @cons ps qs x y xs ys hxy _ ih =>
    obtain ⟨hhead, htriples⟩ := ih (k + 1)
    refine ⟨rfl, ?_⟩
    have hrest : Names.Rdf.rest ∉ keywordProperties := by decide
    rw [triples, triples, hhead]
    exact .cons (hxy.link (by decide)) (htriples.cons_same (.of_property hrest))

end Triples

/-! ### Expressions -/

/-- What is written for two expressions is the same, but for these pairs of keywords. -/
structure Emission.Respelled (ps : Multiset (String × String)) (e f : Emission) : Prop where
  next : e.next = f.next
  parts : ∃ qs rs, qs + rs = ps ∧ Term.Respelled qs e.node f.node ∧
    Along Triple.Respelled rs e.triples f.triples

structure Emissions.Respelled (ps : Multiset (String × String)) (e f : Emissions) : Prop where
  next : e.next = f.next
  parts : ∃ qs rs, qs + rs = ps ∧ Along Term.Respelled qs e.nodes f.nodes ∧
    Along Triple.Respelled rs e.triples f.triples

section Emitted
variable {ps qs : Multiset (String × String)} {n : Nat}

/-- A node that is linked to an operand. -/
theorem Emission.Respelled.ofOperand {e f : Emission} (h : e.Respelled ps f) :
    (Emission.ofOperand n e).Respelled ps (Emission.ofOperand n f) := by
  obtain ⟨qs, rs, hps, hnode, htriples⟩ := h.parts
  refine ⟨h.next, 0, rs + qs, ?_, .same rfl, htriples.append (.single (hnode.link (by decide)))⟩
  rw [zero_add, add_comm, hps]

/-- A node over a list of operands. -/
theorem Emissions.Respelled.ofOperands {e f : Emissions} {property : String}
    (h : e.Respelled ps f) (hproperty : property ∉ keywordProperties) :
    (Emission.ofOperands n property e).Respelled ps (Emission.ofOperands n property f) := by
  obtain ⟨qs, rs, hps, hnodes, htriples⟩ := h.parts
  obtain ⟨hhead, hcells⟩ := Chain.along_triples hnodes e.next
  refine ⟨?_, 0, rs + qs, ?_, .same rfl, ?_⟩
  · rw [Emission.ofOperands, Emission.ofOperands, h.next, hnodes.length_eq]
  · rw [zero_add, add_comm, hps]
  · rw [Emission.ofOperands, Emission.ofOperands, ← h.next, ← hhead]
    exact htriples.append (hcells.cons_same (.of_property hproperty))

theorem Emission.Respelled.cons {e f : Emission} {es fs : Emissions} (h : e.Respelled ps f)
    (hs : es.Respelled qs fs) :
    Emissions.Respelled (ps + qs) ⟨e.node :: es.nodes, e.triples ++ es.triples, es.next⟩
      ⟨f.node :: fs.nodes, f.triples ++ fs.triples, fs.next⟩ := by
  obtain ⟨qs, rs, rfl, hnode, htriples⟩ := h.parts
  obtain ⟨qs', rs', rfl, hnodes, hmore⟩ := hs.parts
  exact ⟨hs.next, qs + qs', rs + rs', add_add_add_comm qs qs' rs rs', .cons hnode hnodes,
    htriples.append hmore⟩

mutual

/-- An expression is written as it was, with each keyword spelled as it stands there. -/
theorem emit_respelled (n : Nat) {e f : Expression} : e.Respelled f →
    Emission.Respelled (e.keywords.zip f.keywords) (e.emit n) (f.emit n)
  | .keyword _ => ⟨rfl, _, 0, add_zero _, .keyword _ _, .nil⟩
  | .not h => (emit_respelled (n + 1) h).ofOperand
  | .all h | .any h => (emitEach_respelled (n + 1) h).ofOperands (by decide)

theorem emitEach_respelled (n : Nat) {es fs : List Expression} :
    Expression.RespelledEach es fs →
    Emissions.Respelled ((Expression.keywordsOfAll es).zip (Expression.keywordsOfAll fs))
      (Expression.emitEach n es) (Expression.emitEach n fs)
  | .nil => ⟨rfl, 0, 0, add_zero 0, .nil, .nil⟩
  | .cons (e := e) h hs => by
    have hfirst := emit_respelled n h
    have hrest := emitEach_respelled (e.emit n).next hs
    rw [Expression.keywordsOfAll, Expression.keywordsOfAll,
      List.zip_append h.keywords.length_eq, ← Multiset.coe_add, Expression.emitEach,
      Expression.emitEach, ← hfirst.next]
    exact hfirst.cons hrest

end

end Emitted

/-! ### Blocks and conditions -/

namespace Scheme
variable {s : Scheme} {n : Nat}

/-- The same body, but for these pairs of keywords. -/
structure Rebodied (ps : Multiset (String × String)) (b c : BlockBody) : Prop where
  ask : b.ask = c.ask
  next : b.next = c.next
  triples : Along Triple.Respelled ps b.triples c.triples

theorem Rebodied.self {b : BlockBody} (h : ∀ t ∈ b.triples, t.predicate ∉ keywordProperties) :
    Rebodied 0 b b :=
  ⟨rfl, rfl, .self fun t ht => .of_property (h t ht)⟩

theorem keywordBody_alike {d : Dimension} {e f : Option Expression} {node : Term}
    (h : Option.Rel Expression.Respelled e f) :
    Alike (Rebodied ((e.elim [] Expression.keywords).zip (f.elim [] Expression.keywords)))
      (s.keywordBody d e node n) (s.keywordBody d f node n) := by
  cases h with
  | none => exact .error rfl
  | @some e f h =>
    have hunknown : Option.Rel Text.Recased (s.firstUnknown? d e) (s.firstUnknown? d f) :=
      find?_recased h.keywords
    rw [keywordBody, keywordBody]
    revert hunknown
    generalize s.firstUnknown? d e = o
    generalize s.firstUnknown? d f = o'
    intro hunknown
    cases hunknown with
    | some hword => exact .error rfl
    | none =>
      obtain ⟨hnext, qs, rs, hps, hnode, htriples⟩ := emit_respelled n h
      refine (clause_alike h).bind fun c c' hc => ?_
      subst hc
      refine .ok ⟨rfl, hnext, ?_⟩
      have hproperty : Names.Context.expression ∈ keywordProperties := by decide
      have hbody := htriples.append (.single (hnode.link (z := node) hproperty))
      rwa [add_comm, hps] at hbody

theorem rebodied_of_timeBody {window : TimeWindow} {node : Term} {b : BlockBody}
    (h : s.timeBody window node n = .ok b) : Rebodied 0 b b := by
  obtain ⟨_, _, _, _, -, -, -, rfl⟩ := timeBody_ok h
  refine .self ?_
  simp only [List.forall_mem_cons]
  exact ⟨by decide, by decide, by simp⟩

theorem rebodied_of_outdoorBody {area : OutdoorArea} {node : Term} {b : BlockBody}
    (h : outdoorBody area node n = .ok b) : Rebodied 0 b b := by
  obtain ⟨_, _, _, _, -, -, rfl⟩ := outdoorBody_ok h
  refine .self ?_
  simp only [List.forall_mem_cons]
  exact ⟨by decide, by decide, by decide, by decide, by simp⟩

theorem body_alike {fact other : Fact} {node : Term} (h : fact.Respelled other) :
    Alike (Rebodied (fact.keywords.zip other.keywords)) (s.body fact node n)
      (s.body other node n) := by
  cases h with
  | user h | environment h | device h => exact keywordBody_alike h
  | time window => exact .self fun b => rebodied_of_timeBody
  | outdoor area => exact .self fun b => rebodied_of_outdoorBody

/-- Two blocks take the same numbers. -/
theorem block_alike {fact other : Fact} (h : fact.Respelled other) :
    Alike (fun x y => x.2 = y.2 ∧
      Along Triple.Respelled (fact.keywords.zip other.keywords) x.1 y.1)
      (s.block fact n) (s.block other n) := by
  rw [block, block, h.dimension]
  refine (body_alike h).bind fun b c hbody => .ok ⟨hbody.next, ?_⟩
  have hlink : other.dimension.link ∉ keywordProperties := by
    cases other.dimension <;> decide
  have htype : Names.Rdf.type ∉ keywordProperties := by decide
  have hcondition : Names.Context.condition ∉ keywordProperties := by decide
  rw [hbody.ask]
  refine Along.cons_same (.cons_same (hbody.triples.append_same ?_) ?_) ?_
  · exact .of_property hcondition
  · exact .of_property htype
  · exact .of_property hlink

theorem blocks_alike {facts others : List Fact} (h : List.Forall₂ Fact.Respelled facts others) :
    Alike (Along Triple.Respelled
        ((facts.flatMap Fact.keywords).zip (others.flatMap Fact.keywords)))
      (s.blocks n facts) (s.blocks n others) := by
  induction h generalizing n with
  | nil => exact .ok .nil
  | @cons fact other facts others hfact _ ih =>
    rw [blocks, blocks, List.flatMap_cons, List.flatMap_cons,
      List.zip_append hfact.keywords.length_eq, ← Multiset.coe_add]
    refine (block_alike hfact).bind ?_
    rintro ⟨ts, next⟩ ⟨us, _⟩ ⟨rfl, htriples⟩
    exact ih.bind fun ts' us' hmore => .ok (htriples.append hmore)

/-- The case of keywords counts for nothing but their own spelling. Whether facts are accepted,
and the field that they fail with, does not depend on it; and conditions that are written are
the same triple by triple, but that each keyword stands as it is spelled in its facts. -/
theorem compile_respelled (s : Scheme) {facts others : Facts} (h : facts.Respelled others) :
    List.Forall₂ Text.Recased facts.keywords others.keywords ∧
    Alike (fun ts us => ts.length = us.length ∧
        Along Triple.Respelled (facts.keywords.zip others.keywords) ts us)
      (s.compile facts) (s.compile others) := by
  refine ⟨keywords_of_respelled h.toList, ?_⟩
  have htyping : s.typing.predicate ∉ keywordProperties := by
    show Names.Rdf.type ∉ keywordProperties
    decide
  rw [compile, compile, h.isEmpty]
  split
  · next hempty =>
    have hnone : facts.toList = [] := by
      rw [← List.isEmpty_iff, ← Facts.isEmpty_eq, h.isEmpty, hempty]
    rw [Facts.keywords, hnone]
    exact .ok ⟨rfl, .nil⟩
  · refine (blocks_alike h.toList).map fun ts us hts => ?_
    have hall := hts.cons_same (.of_property htyping)
    exact ⟨hall.length_eq, hall⟩

/-- Two words in three spellings, one of them below a negation, whose triple comes first. -/
theorem compile_respelled_upper :
    let staff : Keywords := (∅ : Keywords).insert "staff" ⟨"urn:org#role", .plain "staff"⟩
    let s : Scheme := ⟨.named "urn:org#room", ⟨staff, ∅, ∅⟩, .dayMonthYear⟩
    let facts (v w : String) : Facts :=
      (∅ : Facts).insert (.user (some (.all [.keyword v, .not (.keyword w)])))
    ∃ ts us, s.compile (facts "Staff" "staff") = .ok ts ∧
      s.compile (facts "staff" "STAFF") = .ok us ∧ ts ≠ us ∧
      Along Triple.Respelled {("Staff", "staff"), ("staff", "STAFF")} ts us := by
  intro staff s facts
  have hfacts : (facts "Staff" "staff").Respelled (facts "staff" "STAFF") := by
    have hfirst : Text.Recased "Staff" "staff" := by decide +kernel
    have hsecond : Text.Recased "staff" "STAFF" := by decide +kernel
    intro d
    cases d with
    | user =>
      exact .some (.user (.some (.all (.cons (.keyword hfirst)
        (.cons (.not (.keyword hsecond)) .nil)))))
    | time | outdoor | environment | device => exact .none
  have hne : (s.compile (facts "Staff" "staff")).toOption ≠
      (s.compile (facts "staff" "STAFF")).toOption := by
    decide +kernel
  have hok : (s.compile (facts "Staff" "staff")).toOption.isSome := by decide +kernel
  have halike := (compile_respelled s hfacts).2
  generalize s.compile (facts "Staff" "staff") = x at hne hok halike ⊢
  generalize s.compile (facts "staff" "STAFF") = y at hne halike ⊢
  cases halike with
  | error _ => cases hok
  | ok h => exact ⟨_, _, rfl, rfl, fun heq => hne (congrArg some heq), h.2⟩

end Scheme

end ContextPolicy
