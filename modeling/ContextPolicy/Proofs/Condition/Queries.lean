import ContextPolicy.Proofs.Condition.RoundTrip

/-! The queries of a condition.

`Asks` says that triples have a query at the block to which the root is linked for a
dimension. Compiled triples have exactly one there for each fact, the query of the fact's
body (`asks_compile`): links and queries are no content, so neither another block nor a body
adds any, and that holds for a blank root too. -/
namespace ContextPolicy.Scheme
variable {s : Scheme} {n : Nat}

/-- The root is linked for a dimension to a node whose query is `query`. -/
def Asks (s : Scheme) (ts : List Triple) (d : Dimension) (query : Term) : Prop :=
  ∃ node, ⟨s.root, d.link, node⟩ ∈ ts ∧ ⟨node, Names.Context.condition, query⟩ ∈ ts

/-! ### One block -/

theorem mem_block_condition {fact : Fact} {ts : List Triple} {next : Nat} {t : Triple}
    {body : BlockBody} (h : s.block fact n = .ok (ts, next))
    (hbody : s.body fact (conditionNode n) (n + 1) = .ok body)
    (hcondition : t.predicate = Names.Context.condition) :
    t ∈ ts ↔ t = ⟨conditionNode n, Names.Context.condition,
      .typed body.ask.toText Names.Context.askQuery⟩ := by
  obtain ⟨body', hbody', rfl, rfl⟩ := block_ok h
  obtain rfl : body = body' := Except.ok.inj (hbody.symm.trans hbody')
  constructor
  · intro ht
    simp only [List.mem_cons, List.mem_append, List.not_mem_nil, or_false] at ht
    rcases ht with rfl | rfl | ht | rfl
    · exact absurd hcondition.symm (condition_ne_link _)
    · exact absurd hcondition type_ne_condition
    · have hcontent := (body_ok hbody).content t ht
      rw [hcondition, isContent_condition] at hcontent
      cases hcontent
    · rfl
  · rintro rfl
    simp

/-! ### Several blocks -/

theorem link_of_mem_blocks {facts : List Fact} {ts : List Triple} {t : Triple} {d : Dimension}
    (h : s.blocks n facts = .ok ts) (ht : t ∈ ts) (hlink : t.predicate = d.link) :
    d ∈ facts.map Fact.dimension ∧ ∃ k, n ≤ k ∧ t = ⟨s.root, d.link, conditionNode k⟩ := by
  induction facts generalizing n ts with
  | nil =>
    cases h
    cases ht
  | cons fact rest ih =>
    obtain ⟨us, next, vs, hus, hvs, rfl⟩ := blocks_cons_ok h
    rcases List.mem_append.mp ht with ht | ht
    · obtain ⟨rfl, rfl⟩ := link_of_mem_block hus ht hlink
      exact ⟨List.mem_cons_self, n, Nat.le_refl n, rfl⟩
    · obtain ⟨hd, k, hk, rfl⟩ := ih hvs ht
      have hnext := (block_spans hus).1
      exact ⟨List.mem_cons_of_mem _ hd, k, by omega, rfl⟩

theorem subject_of_mem_blocks_condition {facts : List Fact} {ts : List Triple} {t : Triple}
    (h : s.blocks n facts = .ok ts) (ht : t ∈ ts)
    (hcondition : t.predicate = Names.Context.condition) :
    ∃ k, n ≤ k ∧ t.subject = conditionNode k := by
  induction facts generalizing n ts with
  | nil =>
    cases h
    cases ht
  | cons fact rest ih =>
    obtain ⟨us, next, vs, hus, hvs, rfl⟩ := blocks_cons_ok h
    rcases List.mem_append.mp ht with ht | ht
    · obtain ⟨body, hbody, -, -⟩ := block_ok hus
      rw [(mem_block_condition hus hbody hcondition).mp ht]
      exact ⟨n, Nat.le_refl n, rfl⟩
    · obtain ⟨k, hk, hsubject⟩ := ih hvs ht
      have hnext := (block_spans hus).1
      exact ⟨k, by omega, hsubject⟩

/-- Behind a block for another dimension, the queries of a dimension are those of the rest. -/
theorem asks_append_iff {fact : Fact} {us vs : List Triple} {next : Nat} {facts : List Fact}
    {d : Dimension} {query : Term} (hus : s.block fact n = .ok (us, next))
    (hvs : s.blocks next facts = .ok vs) (hd : d ≠ fact.dimension) :
    s.Asks (us ++ vs) d query ↔ s.Asks vs d query := by
  constructor
  · rintro ⟨node, hlink, hquery⟩
    have hlink : ⟨s.root, d.link, node⟩ ∈ vs := by
      rcases List.mem_append.mp hlink with h | h
      · exact absurd (link_of_mem_block hus h rfl).1 hd
      · exact h
    refine ⟨node, hlink, ?_⟩
    rcases List.mem_append.mp hquery with h | h
    · obtain ⟨-, k, hk, hnode⟩ := link_of_mem_blocks hvs hlink rfl
      obtain ⟨body, hbody, -, -⟩ := block_ok hus
      have hsubject := congrArg Triple.subject ((mem_block_condition hus hbody rfl).mp h)
      have hnumber := conditionNode_injective
        (((Triple.mk.inj hnode).2.2.symm.trans hsubject : conditionNode k = conditionNode n))
      have hnext := (block_spans hus).1
      omega
    · exact h
  · rintro ⟨node, hlink, hquery⟩
    exact ⟨node, List.mem_append_right _ hlink, List.mem_append_right _ hquery⟩

/-- For the dimension of a block, the queries are those of the block, if no other is for it. -/
theorem asks_block_append_iff {fact : Fact} {us vs : List Triple} {next : Nat}
    {facts : List Fact} {query : Term} {body : BlockBody}
    (hus : s.block fact n = .ok (us, next))
    (hbody : s.body fact (conditionNode n) (n + 1) = .ok body)
    (hvs : s.blocks next facts = .ok vs) (hd : fact.dimension ∉ facts.map Fact.dimension) :
    s.Asks (us ++ vs) fact.dimension query ↔
      query = .typed body.ask.toText Names.Context.askQuery := by
  constructor
  · rintro ⟨node, hlink, hquery⟩
    have hnode : node = conditionNode n := by
      rcases List.mem_append.mp hlink with h | h
      · exact (Triple.mk.inj (link_of_mem_block hus h rfl).2).2.2
      · exact absurd (link_of_mem_blocks hvs h rfl).1 hd
    subst hnode
    rcases List.mem_append.mp hquery with h | h
    · exact (Triple.mk.inj ((mem_block_condition hus hbody rfl).mp h)).2.2
    · obtain ⟨k, hk, hsubject⟩ := subject_of_mem_blocks_condition hvs h rfl
      have hnumber := conditionNode_injective hsubject
      have hnext := (block_spans hus).1
      omega
  · rintro rfl
    refine ⟨conditionNode n, List.mem_append_left _ ?_, List.mem_append_left _ ?_⟩
    · obtain ⟨_, -, -, rfl⟩ := block_ok hus
      exact List.mem_cons_self
    · exact (mem_block_condition hus hbody rfl).mpr rfl

theorem asks_blocks {facts : List Fact} {ts : List Triple} (h : s.blocks n facts = .ok ts)
    (hnd : (facts.map Fact.dimension).Nodup) {fact : Fact} (hmem : fact ∈ facts) :
    ∃ k body, s.body fact (conditionNode k) (k + 1) = .ok body ∧
      ∀ query, s.Asks ts fact.dimension query ↔
        query = .typed body.ask.toText Names.Context.askQuery := by
  induction facts generalizing n ts with
  | nil => cases hmem
  | cons first rest ih =>
    obtain ⟨us, next, vs, hus, hvs, rfl⟩ := blocks_cons_ok h
    obtain ⟨hnew, hnd⟩ := List.nodup_cons.mp hnd
    rcases List.mem_cons.mp hmem with rfl | hmem
    · obtain ⟨body, hbody, -, -⟩ := block_ok hus
      exact ⟨n, body, hbody, fun query => asks_block_append_iff hus hbody hvs hnew⟩
    · obtain ⟨k, body, hbody, hasks⟩ := ih hvs hnd hmem
      have hne : fact.dimension ≠ first.dimension :=
        fun heq => hnew (heq ▸ List.mem_map_of_mem hmem)
      exact ⟨k, body, hbody, fun query => (asks_append_iff hus hvs hne).trans (hasks query)⟩

/-! ### Conditions -/

/-- A fact that was compiled has one query, that of its body. -/
theorem asks_compile {facts : Facts} {ts : List Triple} (hbuilt : facts.Built)
    (h : s.compile facts = .ok ts) {d : Dimension} {fact : Fact}
    (hfact : facts.get? d = some fact) :
    ∃ k body, s.body fact (conditionNode k) (k + 1) = .ok body ∧
      ∀ query, s.Asks ts d query ↔ query = .typed body.ask.toText Names.Context.askQuery := by
  obtain rfl := hbuilt.dimension_eq d fact hfact
  rcases compile_ok h with ⟨rfl, -⟩ | ⟨us, hus, rfl⟩
  · rw [Facts.get?_empty] at hfact
    cases hfact
  · obtain ⟨k, body, hbody, hasks⟩ := asks_blocks hus hbuilt.dimensions_nodup
      (Facts.mem_toList_iff.mpr ⟨_, hfact⟩)
    refine ⟨k, body, hbody, fun query => Iff.trans ?_ (hasks query)⟩
    -- The typing in front is neither a link nor a query.
    have htyping : ∀ t ∈ s.typing :: us, t.predicate ≠ Names.Rdf.type → t ∈ us := by
      intro t ht hne
      rcases List.mem_cons.mp ht with rfl | ht
      · exact absurd rfl hne
      · exact ht
    constructor
    · rintro ⟨node, hlink, hquery⟩
      exact ⟨node, htyping _ hlink (type_ne_link _).symm, htyping _ hquery type_ne_condition.symm⟩
    · rintro ⟨node, hlink, hquery⟩
      exact ⟨node, List.mem_cons_of_mem _ hlink, List.mem_cons_of_mem _ hquery⟩

/-- The body of a fact about keywords asks what its expression says. -/
theorem body_of_expression? {fact : Fact} {e : Expression} {body : BlockBody} {node : Term}
    (hfact : fact.expression? = some (some e)) (h : s.body fact node n = .ok body) :
    ∃ c, s.clause fact.dimension e = .ok c ∧ body.ask = ⟨[c]⟩ := by
  have hclause : ∀ d, s.keywordBody d (some e) node n = .ok body →
      ∃ c, s.clause d e = .ok c ∧ body.ask = ⟨[c]⟩ := by
    intro d h
    obtain ⟨e', c, he, hc, rfl⟩ := keywordBody_ok h
    cases he
    exact ⟨c, hc, rfl⟩
  cases fact with
  | user e | environment e | device e =>
    cases hfact
    exact hclause _ h
  | time window | outdoor area => cases hfact

/-- The query for the keywords of a dimension. -/
theorem asks_keywords {facts : Facts} {ts : List Triple} (hbuilt : facts.Built)
    (h : s.compile facts = .ok ts) {d : Dimension} {e : Expression}
    (he : facts.expression? d = some (some e)) :
    ∃ c, s.clause d e = .ok c ∧ ∀ query, s.Asks ts d query ↔
      query = .typed (Ask.toText ⟨[c]⟩) Names.Context.askQuery := by
  obtain ⟨fact, hfact, he⟩ := Option.bind_eq_some_iff.mp he
  obtain ⟨k, body, hbody, hasks⟩ := asks_compile hbuilt h hfact
  obtain ⟨c, hc, hask⟩ := body_of_expression? he hbody
  rw [hbuilt.dimension_eq d fact hfact] at hc
  rw [hask] at hasks
  exact ⟨c, hc, hasks⟩

end ContextPolicy.Scheme
