import Mathlib.Data.List.Count
import Mathlib.Data.List.Intervals
import ContextPolicy.Proofs.Condition.Connected
import ContextPolicy.Proofs.Condition.Terms
import ContextPolicy.Proofs.Session.Relabel

/-! The tree under the root of a condition.

The writer numbers an operator in front of its operands and the cells of a list behind all of
its members, and its triples come in yet another order. Neither matters for the tree. Some
triples lead from the nodes that they are entered at to the nodes that they leave open, and
come to each numbered node on the way once (`Grows`). A piece stands above the one that is
entered where it is open (`Grows.above`), neighbours stand side by side (`Grows.beside`), and
each emitting function puts such pieces together, up to a whole condition, which is entered
nowhere and leaves nothing open (`grows_compile`). -/
namespace ContextPolicy

/-- The triples lead from the tops to the leaves: where they are entered at the tops, each node
with one of the numbers is come to once, beside the leaves, and something is said of it. -/
structure Grows (ns : List Nat) (tops leaves : List Term) (ts : List Triple) : Prop where
  once : ∀ k, (tops ++ ts.map (·.object)).count (conditionNode k) =
    leaves.count (conditionNode k) + ns.count k
  described : ∀ k ∈ ns, conditionNode k ∈ ts.map (·.subject)

/-! ### Pieces -/

namespace Grows
variable {ns ms : List Nat} {tops leaves heads tips : List Term} {ts us : List Triple}

theorem perm (h : Grows ns tops leaves ts) (hns : ns.Perm ms) (hts : ts.Perm us) :
    Grows ms tops leaves us where
  once k := by
    rw [← hns.count_eq, ← h.once k]
    exact ((hts.map _).append_left tops).symm.count_eq _
  described k hk := (hts.map _).mem_iff.mp (h.described k (hns.mem_iff.mpr hk))

theorem nil (xs : List Term) : Grows [] xs xs [] where
  once k := by simp
  described k hk := absurd hk List.not_mem_nil

/-- A term that is no blank node. -/
theorem leaf {x : Term} (h : x.isBlank = false) : Grows [] [x] [] [] where
  once k := by
    have hne : conditionNode k ∉ [x] := by
      intro hmem
      rw [← List.mem_singleton.mp hmem] at h
      cases h
    simp [List.count_eq_zero_of_not_mem hne]
  described k hk := absurd hk List.not_mem_nil

/-- Triples on their own leave their objects open. -/
theorem links (ts : List Triple) : Grows [] [] (ts.map (·.object)) ts where
  once k := by simp
  described k hk := absurd hk List.not_mem_nil

/-- Triples without a blank object. -/
theorem fields (h : ∀ t ∈ ts, t.object.isBlank = false) : Grows [] [] [] ts where
  once k := by
    simp only [List.nil_append, List.count_nil, Nat.add_zero]
    refine List.count_eq_zero_of_not_mem fun hmem => ?_
    obtain ⟨t, ht, hobject⟩ := List.mem_map.mp hmem
    have hblank := h t ht
    rw [hobject] at hblank
    cases hblank
  described k hk := absurd hk List.not_mem_nil

/-- What is said of a node can be entered there. -/
theorem enter (h : Grows ns [] leaves ts) {n : Nat} (hn : conditionNode n ∈ ts.map (·.subject)) :
    Grows (n :: ns) [conditionNode n] leaves ts where
  once k := by
    have hself : [conditionNode n].count (conditionNode k) = [n].count k :=
      List.count_map_of_injective [n] conditionNode conditionNode_injective k
    have hrest := h.once k
    rw [List.nil_append] at hrest
    simp only [List.count_append, hself, hrest, List.count_cons, List.count_nil]
    omega
  described k hk := by
    rcases List.mem_cons.mp hk with rfl | hk
    · exact hn
    · exact h.described k hk

theorem described_append (h : Grows ns tops leaves ts) (h' : Grows ms heads tips us) :
    ∀ k ∈ ns ++ ms, conditionNode k ∈ (ts ++ us).map (·.subject) := by
  intro k hk
  rw [List.map_append]
  rcases List.mem_append.mp hk with hk | hk
  · exact List.mem_append_left _ (h.described k hk)
  · exact List.mem_append_right _ (h'.described k hk)

theorem beside (h : Grows ns tops leaves ts) (h' : Grows ms heads tips us) :
    Grows (ns ++ ms) (tops ++ heads) (leaves ++ tips) (ts ++ us) where
  once k := by
    have hleft := h.once k
    have hright := h'.once k
    simp only [List.map_append, List.count_append] at hleft hright ⊢
    omega
  described := h.described_append h'

/-- The leaves of the one are the tops of the other. -/
theorem above (h : Grows ns tops heads ts) (h' : Grows ms heads leaves us) :
    Grows (ns ++ ms) tops leaves (ts ++ us) where
  once k := by
    have hupper := h.once k
    have hlower := h'.once k
    simp only [List.map_append, List.count_append] at hupper hlower ⊢
    omega
  described := h.described_append h'

/-- A node that is linked to one other. -/
theorem link (n : Nat) (q : String) (y : Term) :
    Grows [n] [conditionNode n] [y] [⟨conditionNode n, q, y⟩] :=
  (links [⟨conditionNode n, q, y⟩]).enter List.mem_cons_self

end Grows

/-! ### Expressions -/

/-- The cells of a list lead to its members. -/
theorem Chain.grows_triples (k : Nat) (members : List Term) :
    Grows (List.Ico k (k + members.length)) [head conditionNode k members] members
      (triples conditionNode k members) := by
  induction members generalizing k with
  | nil =>
    rw [List.length_nil, Nat.add_zero, List.Ico.self_empty]
    exact .leaf rfl
  | cons m rest ih =>
    have hcell := (Grows.links [⟨conditionNode k, Names.Rdf.first, m⟩,
      ⟨conditionNode k, Names.Rdf.rest, head conditionNode (k + 1) rest⟩]).enter List.mem_cons_self
    have hgrows := hcell.above ((Grows.nil [m]).beside (ih (k + 1)))
    have hnumbers : List.Ico k (k + (m :: rest).length) =
        [k] ++ ([] ++ List.Ico (k + 1) (k + 1 + rest.length)) := by
      rw [List.length_cons, List.Ico.eq_cons (by omega)]
      congr 2
      omega
    rw [hnumbers]
    exact hgrows

namespace Expression

/-- A node over the cells of a list over its members. -/
theorem grows_ofOperands {n : Nat} {property : String} {operands : Emissions}
    (hle : n + 1 ≤ operands.next)
    (h : Grows (List.Ico (n + 1) operands.next) operands.nodes [] operands.triples) :
    let e := Emission.ofOperands n property operands
    Grows (List.Ico n e.next) [e.node] [] e.triples := by
  intro e
  let head := Chain.head conditionNode operands.next operands.nodes
  let cells := Chain.triples conditionNode operands.next operands.nodes
  let link : Triple := ⟨conditionNode n, property, head⟩
  have hlist := (Chain.grows_triples operands.next operands.nodes).above h
  have hgrows := (Grows.link n property head).above hlist
  have hcount : operands.next ≤ e.next := Nat.le_add_right _ operands.nodes.length
  have hnumbers : (List.Ico operands.next e.next ++ List.Ico (n + 1) operands.next).Perm
      (List.Ico (n + 1) e.next) := by
    rw [← List.Ico.append_consecutive hle hcount]
    exact List.perm_append_comm
  refine hgrows.perm ?_ ?_
  · rw [List.Ico.eq_cons (Nat.lt_of_lt_of_le hle hcount)]
    exact hnumbers.cons n
  · show ([link] ++ (cells ++ operands.triples)).Perm (operands.triples ++ link :: cells)
    rw [← List.append_assoc]
    exact List.perm_append_comm

mutual

/-- The triples of an expression lead from its node to all that are numbered for it. -/
theorem grows_emit (n : Nat) : (e : Expression) →
    Grows (List.Ico n (emit n e).next) [(emit n e).node] [] (emit n e).triples
  | keyword _ => by
    show Grows (List.Ico n n) _ _ _
    rw [List.Ico.self_empty]
    exact .leaf rfl
  | not operand => by
    have hgrows := (Grows.link n Names.Context.not _).above (grows_emit (n + 1) operand)
    refine hgrows.perm ?_ List.perm_append_comm
    have hle : n + 1 ≤ (emit (n + 1) operand).next := le_next_emit (n + 1) operand
    show ([n] ++ _).Perm (List.Ico n (emit (n + 1) operand).next)
    rw [List.Ico.eq_cons hle]
    exact .refl _
  | all operands | any operands =>
    grows_ofOperands (le_next_emitEach (n + 1) operands) (grows_emitEach (n + 1) operands)

theorem grows_emitEach (n : Nat) : (es : List Expression) →
    Grows (List.Ico n (emitEach n es).next) (emitEach n es).nodes [] (emitEach n es).triples
  | [] => by
    show Grows (List.Ico n n) [] [] []
    rw [List.Ico.self_empty]
    exact .nil []
  | e :: rest => by
    have hgrows := (grows_emit n e).beside (grows_emitEach (emit n e).next rest)
    rw [List.Ico.append_consecutive (le_next_emit n e) (le_next_emitEach _ rest)] at hgrows
    exact hgrows

end

end Expression

/-! ### Conditions -/

namespace Scheme
variable {s : Scheme} {n : Nat}

theorem grows_body {fact : Fact} {body : BlockBody}
    (h : s.body fact (conditionNode n) (n + 1) = .ok body) :
    Grows (List.Ico (n + 1) body.next) [] [] body.triples := by
  cases fact with
  | user e | environment e | device e =>
    obtain ⟨e, _, -, -, rfl⟩ := keywordBody_ok h
    have hlink := Grows.links [⟨conditionNode n, Names.Context.expression, (e.emit (n + 1)).node⟩]
    exact (hlink.above (Expression.grows_emit (n + 1) e)).perm (.refl _) List.perm_append_comm
  | time window =>
    obtain ⟨_, _, _, _, -, -, -, rfl⟩ := timeBody_ok h
    show Grows (List.Ico (n + 1) (n + 1)) [] [] _
    rw [List.Ico.self_empty]
    exact .fields (by simp [Term.isBlank, Term.plain])
  | outdoor area =>
    obtain ⟨_, _, _, _, -, -, rfl⟩ := outdoorBody_ok h
    show Grows (List.Ico (n + 1) (n + 1)) [] [] _
    rw [List.Ico.self_empty]
    exact .fields (by simp [Term.isBlank, Term.plain, Term.typed, decimal])

theorem grows_block {fact : Fact} {ts : List Triple} {next : Nat}
    (h : s.block fact n = .ok (ts, next)) : Grows (List.Ico n next) [] [] ts := by
  have hle := (block_spans h).1
  obtain ⟨body, hbody, rfl, rfl⟩ := block_ok h
  let link : Triple := ⟨s.root, fact.dimension.link, conditionNode n⟩
  let type : Triple := ⟨conditionNode n, Names.Rdf.type, .named fact.dimension.type⟩
  let ask : Triple := ⟨conditionNode n, Names.Context.condition,
    .typed body.ask.toText Names.Context.askQuery⟩
  have htype : Grows [] [] [] [type] := .fields (by simp [type, Term.isBlank])
  have hask : Grows [] [] [] [ask] := .fields (by simp [ask, Term.isBlank, Term.typed])
  have hnode := ((htype.beside (grows_body hbody)).beside hask).enter
    (n := n) (List.mem_cons_self)
  have hgrows := (Grows.links [link]).above hnode
  rw [List.Ico.eq_cons hle]
  refine hgrows.perm ?_ ?_
  · simp
  · simp [link, type, ask]

theorem grows_blocks {facts : List Fact} {ts : List Triple} (h : s.blocks n facts = .ok ts) :
    ∃ m, n ≤ m ∧ Grows (List.Ico n m) [] [] ts := by
  induction facts generalizing n ts with
  | nil =>
    cases h
    refine ⟨n, Nat.le_refl n, ?_⟩
    rw [List.Ico.self_empty]
    exact .nil []
  | cons fact rest ih =>
    obtain ⟨us, next, vs, hus, hvs, rfl⟩ := blocks_cons_ok h
    obtain ⟨m, hm, hrest⟩ := ih hvs
    have hle : n ≤ next := Nat.le_of_succ_le (block_spans hus).1
    have hgrows := (grows_block hus).beside hrest
    rw [List.Ico.append_consecutive hle hm] at hgrows
    exact ⟨m, Nat.le_trans hle hm, hgrows⟩

/-- A condition leaves nothing open. -/
theorem grows_compile {facts : Facts} {ts : List Triple} (h : s.compile facts = .ok ts) :
    ∃ n, Grows (List.Ico 0 n) [] [] ts := by
  rcases compile_ok h with ⟨-, rfl⟩ | ⟨us, hus, rfl⟩
  · exact ⟨0, .nil []⟩
  · obtain ⟨n, -, hgrows⟩ := grows_blocks hus
    have htyping : Grows [] [] [] [s.typing] := .fields (by simp [typing, Term.isBlank])
    exact ⟨n, htyping.beside hgrows⟩

end Scheme

/-! ### The root -/

/-- The triples make up a tree under the root, over the first `n` numbered nodes. -/
structure TreeUnder (root : Term) (n : Nat) (ts : List Triple) : Prop where
  labels : ∀ label, label ∈ labelsOf ts ↔ ∃ k < n, label = conditionLabel k
  once : ∀ k < n, (ts.map (·.object)).count (conditionNode k) = 1
  described : ∀ k < n, conditionNode k ∈ ts.map (·.subject)
  subjects : ∀ t ∈ ts, t.subject = root ∨ ∃ k < n, t.subject = conditionNode k
  reached : ∀ k < n, Reaches ts root (conditionNode k)

namespace Scheme
variable {s : Scheme}

section Root
variable {iri : String} {facts : Facts} {ts : List Triple}

/-- Every triple of a condition is about a node that is reached from its root. -/
theorem reaches_subject (h : s.compile facts = .ok ts) {t : Triple} (ht : t ∈ ts) :
    Reaches ts s.root t.subject := by
  cases compile_inCondition h t ht with
  | typing => exact .refl
  | link d node => exact .refl
  | described hlink hblank hreach => exact (Reaches.of_mem hlink hblank).trans hreach

/-- The blank nodes among the objects of a condition are the numbered ones. -/
theorem isBlank_object_iff {n : Nat} (h : s.compile facts = .ok ts)
    (hgrows : Grows (List.Ico 0 n) [] [] ts) {x : Term} :
    (x.isBlank ∧ x ∈ ts.map (·.object)) ↔ ∃ k < n, x = conditionNode k := by
  have hmem : ∀ k, conditionNode k ∈ ts.map (·.object) ↔ k < n := by
    intro k
    have honce := hgrows.once k
    rw [List.nil_append, List.count_nil, Nat.zero_add] at honce
    rw [← List.count_pos_iff, honce, List.count_pos_iff, List.Ico.mem]
    omega
  constructor
  · rintro ⟨hblank, hx⟩
    obtain ⟨t, ht, hobject⟩ := List.mem_map.mp hx
    have hterm : x.OfCondition := hobject ▸ (composed_compile h t ht).object
    cases hterm with
    | node k => exact ⟨k, (hmem k).mp hx, rfl⟩
    | named _ | plain _ | typed _ _ => cases hblank
  · rintro ⟨k, hk, rfl⟩
    exact ⟨rfl, (hmem k).mpr hk⟩

/-- Nothing is said of any node but the root and the numbered ones. -/
theorem subject_eq_of_grows {n : Nat} (h : s.compile facts = .ok ts)
    (hgrows : Grows (List.Ico 0 n) [] [] ts) {t : Triple} (ht : t ∈ ts) :
    t.subject = s.root ∨ ∃ k < n, t.subject = conditionNode k :=
  (reaches_subject h ht).eq_or_object.imp_right (isBlank_object_iff h hgrows).mp

/-- The labels of a condition are those of the numbered nodes. -/
theorem mem_labelsOf_of_grows {n : Nat} (hroot : s.root = .named iri)
    (h : s.compile facts = .ok ts) (hgrows : Grows (List.Ico 0 n) [] [] ts) {label : String} :
    label ∈ labelsOf ts ↔ ∃ k < n, label = conditionLabel k := by
  rw [mem_labelsOf]
  constructor
  · rintro ⟨t, ht, hsubject | hobject⟩
    · obtain hself | ⟨k, hk, heq⟩ := subject_eq_of_grows h hgrows ht
      · rw [← hself, hsubject] at hroot
        cases hroot
      · exact ⟨k, hk, Term.blank.inj (hsubject.symm.trans heq)⟩
    · have hmem := List.mem_map_of_mem (f := (·.object)) ht
      rw [hobject] at hmem
      obtain ⟨k, hk, heq⟩ := (isBlank_object_iff h hgrows).mp ⟨rfl, hmem⟩
      exact ⟨k, hk, Term.blank.inj heq⟩
  · rintro ⟨k, hk, rfl⟩
    obtain ⟨t, ht, hobject⟩ :=
      List.mem_map.mp ((isBlank_object_iff h hgrows).mpr ⟨k, hk, rfl⟩).2
    exact ⟨t, ht, .inr hobject⟩

/-- A condition is one tree under its root, so the description of the root is all of it. -/
theorem compile_tree (hroot : s.root = .named iri) (h : s.compile facts = .ok ts) :
    (∃ n, TreeUnder s.root n ts) ∧
      (Graph.ofTriples ts).describe s.root = List.range ts.length := by
  obtain ⟨n, hgrows⟩ := grows_compile h
  have hnumbers : ∀ k, k < n → k ∈ List.Ico 0 n :=
    fun k hk => List.Ico.mem.mpr ⟨Nat.zero_le k, hk⟩
  refine ⟨⟨n, fun label => mem_labelsOf_of_grows hroot h hgrows, ?once, ?described,
    fun t ht => subject_eq_of_grows h hgrows ht, ?reached⟩,
    Graph.describe_ofTriples fun t ht => reaches_subject h ht⟩
  case once =>
    intro k hk
    have honce := hgrows.once k
    rw [List.nil_append, List.count_nil, Nat.zero_add,
      List.count_eq_one_of_mem (List.Ico.nodup 0 n) (hnumbers k hk)] at honce
    exact honce
  case described => exact fun k hk => hgrows.described k (hnumbers k hk)
  case reached =>
    intro k hk
    obtain ⟨t, ht, heq⟩ := List.mem_map.mp (hgrows.described k (hnumbers k hk))
    exact heq ▸ reaches_subject h ht

/-- Operators inside operators, one of them without operands, in one dimension, and fields
without operators in another. -/
theorem compile_tree_nested :
    let staff : Keywords := (∅ : Keywords).insert "staff" ⟨"urn:org#role", .plain "staff"⟩
    let s : Scheme := ⟨.named "urn:org#room", ⟨staff, ∅, ∅⟩, .dayMonthYear⟩
    let word : Expression := .keyword "Staff"
    let facts : Facts :=
      ((∅ : Facts).insert (.user (some (.all [.not word, .any [word, .all []]])))).insert
        (.time ⟨some "01/01/2020", some "31/12/2020"⟩)
    ∃ ts, s.compile facts = .ok ts ∧
      labelsOf ts = [0, 2, 4, 3, 5, 6, 1, 7, 8, 9].map conditionLabel ∧
      (∃ n, TreeUnder s.root n ts) ∧
      (Graph.ofTriples ts).describe s.root = List.range ts.length := by
  intro staff s word facts
  have hok : (s.compile facts).toOption.isSome := by decide +kernel
  obtain ⟨ts, hts⟩ := Option.isSome_iff_exists.mp hok
  have h : s.compile facts = .ok ts := ok_of_toOption hts
  refine ⟨ts, h, ?_, compile_tree rfl h⟩
  have hlabels : (s.compile facts).toOption.map labelsOf =
      some ([0, 2, 4, 3, 5, 6, 1, 7, 8, 9].map conditionLabel) := by
    decide +kernel
  rw [hts] at hlabels
  exact Option.some.inj hlabels

end Root

end Scheme

end ContextPolicy
