import ContextPolicy.Proofs.Condition.Mirrored
import ContextPolicy.Proofs.Graph.Earliest

/-! What extraction makes of a graph, dimension by dimension.

A dimension is absent, or present with the fact of its block, or its expression is no
expression. The three are told apart by the root's type, by the earliest link for the
dimension, and by the reader of expressions; no dimension has a say in what becomes of another
(`extractEach_ok`), but that the first one at fault ends the reading (`extractEach_error_iff`).

What a block states it states field by field (`Graph.States`): a field is what its earliest
value is, and that is nothing if the value is no literal or cannot be read (`Graph.FieldOf`),
whatever comes behind it. -/
namespace ContextPolicy

namespace Graph
variable {g : Graph} {x : Term} {q : String}

/-! ### Fields -/

/-- What a field is: the earliest value of a property, if there is one, as the literal that it
is, as far as its text can be read. -/
inductive FieldOf (g : Graph) (x : Term) (q : String) {α : Type} (read : String → Option α) :
    Option α → Prop
  | absent (h : ∀ t ∈ g.triples, t.subject = x → t.predicate ≠ q) : FieldOf g x q read none
  | noLiteral {y : Term} (h : g.IsFirst x q y) (hy : y.isLiteral = false) :
    FieldOf g x q read none
  | unreadable {value : String} {datatype lang : Option String}
    (h : g.IsFirst x q (.literal value datatype lang)) (hvalue : read value = none) :
    FieldOf g x q read none
  | found {value : String} {datatype lang : Option String} {a : α}
    (h : g.IsFirst x q (.literal value datatype lang)) (hvalue : read value = some a) :
    FieldOf g x q read (some a)

theorem Indexed.fieldOf_literalOf (h : g.Indexed) {α : Type} (read : String → Option α) :
    g.FieldOf x q read ((g.literalOf x q).bind read) := by
  rw [literalOf]
  cases hfirst : g.firstObject x q with
  | none => exact .absent (h.firstObject_eq_none_iff.mp hfirst)
  | some y =>
    have hy := h.firstObject_eq_some_iff.mp hfirst
    cases y with
    | named | blank => exact .noLiteral hy rfl
    | literal value datatype lang =>
      show g.FieldOf x q read (read value)
      cases hvalue : read value with
      | none => exact .unreadable hy hvalue
      | some a => exact .found hy hvalue

theorem FieldOf.unique {α : Type} {read : String → Option α} {o o' : Option α}
    (h : g.FieldOf x q read o) (h' : g.FieldOf x q read o') : o = o' := by
  have hpresent : ∀ {y}, g.IsFirst x q y → ∃ t ∈ g.triples, t.subject = x ∧ t.predicate = q :=
    fun ⟨_, hi, _⟩ => ⟨_, Log.mem_triples_of_get? hi, rfl, rfl⟩
  have hfound : ∀ {value : String} {datatype lang : Option String} {a : α},
      g.IsFirst x q (.literal value datatype lang) → read value = some a →
      ∀ {o}, g.FieldOf x q read o → o = some a := by
    intro value datatype lang a hfirst hvalue o ho
    cases ho with
    | absent hnone =>
      obtain ⟨t, ht, hx, hq⟩ := hpresent hfirst
      exact absurd hq (hnone t ht hx)
    | noLiteral hy hlit =>
      rw [hy.unique hfirst] at hlit
      cases hlit
    | unreadable hy hnone =>
      cases hy.unique hfirst
      rw [hvalue] at hnone
      cases hnone
    | found hy hsome =>
      cases hy.unique hfirst
      exact hsome.symm.trans hvalue
  cases o with
  | some a =>
    cases h with
    | found hfirst hvalue => exact (hfound hfirst hvalue h').symm
  | none =>
    cases o' with
    | none => rfl
    | some a =>
      cases h' with
      | found hfirst hvalue => exact hfound hfirst hvalue h

theorem Indexed.fieldOf_iff (h : g.Indexed) {α : Type} {read : String → Option α}
    {o : Option α} : g.FieldOf x q read o ↔ (g.literalOf x q).bind read = o :=
  ⟨fun ho => (h.fieldOf_literalOf read).unique ho, fun ho => ho ▸ h.fieldOf_literalOf read⟩

/-! ### Blocks -/

/-- A block has no expression, or the one that its earliest value stands for, if any. -/
inductive StatesExpression (g : Graph) (node : Term) : Option Expression → Prop
  | absent (h : ∀ t ∈ g.triples, t.subject = node → t.predicate ≠ Names.Context.expression) :
    StatesExpression g node none
  | read {y : Term} {e : Option Expression} (h : g.IsFirst node Names.Context.expression y)
    (hy : g.readExpression [] y = .ok e) : StatesExpression g node e

/-- What a block states, as the fact of a dimension. -/
inductive States (g : Graph) (node : Term) : Fact → Prop
  | user {e : Option Expression} (h : g.StatesExpression node e) : States g node (.user e)
  | time {window : TimeWindow} (hbegin : g.FieldOf node Names.Context.begin some window.begin)
    (hend : g.FieldOf node Names.Context.end some window.end) : States g node (.time window)
  | outdoor {area : OutdoorArea} {unit : Option DistanceUnit}
    (hlatitude : g.FieldOf node Names.Context.latitude Number.readTrimmed area.latitude)
    (hlongitude : g.FieldOf node Names.Context.longitude Number.readTrimmed area.longitude)
    (hradius : g.FieldOf node Names.Context.radius Number.readTrimmed area.radius)
    (hunit : g.FieldOf node Names.Context.unit DistanceUnit.ofSymbol? unit)
    (harea : area.unit = unit.getD .meters) : States g node (.outdoor area)
  | environment {e : Option Expression} (h : g.StatesExpression node e) :
    States g node (.environment e)
  | device {e : Option Expression} (h : g.StatesExpression node e) : States g node (.device e)

theorem Indexed.statesExpression_of_ok (h : g.Indexed) {node : Term} {e : Option Expression}
    (he : g.expressionOf node = .ok e) : g.StatesExpression node e := by
  rw [expressionOf] at he
  cases hfirst : g.firstObject node Names.Context.expression with
  | none =>
    rw [hfirst] at he
    cases he
    exact .absent (h.firstObject_eq_none_iff.mp hfirst)
  | some y =>
    rw [hfirst] at he
    exact .read (h.firstObject_eq_some_iff.mp hfirst) he

theorem Indexed.expressionOf_eq_error_iff (h : g.Indexed) {node : Term} {fault : ListFault} :
    g.expressionOf node = .error fault ↔
      ∃ y, g.IsFirst node Names.Context.expression y ∧ g.readExpression [] y = .error fault := by
  simp only [← h.firstObject_eq_some_iff]
  rw [expressionOf]
  cases g.firstObject node Names.Context.expression with
  | none => simp
  | some y => simp

/-- The fact that is read from a block is what the block states, for the dimension asked for. -/
theorem Indexed.states_of_factOf (h : g.Indexed) {node : Term} {d : Dimension} {fact : Fact}
    (hfact : g.factOf node d = .ok fact) : fact.dimension = d ∧ g.States node fact := by
  have htext : ∀ q, g.FieldOf node q some (g.literalOf node q) :=
    fun q => h.fieldOf_iff.mpr (Option.bind_fun_some _)
  cases d with
  | user | environment | device =>
    obtain ⟨e, he, rfl⟩ := map_eq_ok hfact
    have hstates := h.statesExpression_of_ok he
    refine ⟨rfl, ?_⟩
    first | exact .user hstates | exact .environment hstates | exact .device hstates
  | time =>
    cases hfact
    exact ⟨rfl, .time (htext _) (htext _)⟩
  | outdoor =>
    cases hfact
    exact ⟨rfl, .outdoor (h.fieldOf_literalOf _) (h.fieldOf_literalOf _) (h.fieldOf_literalOf _)
      (h.fieldOf_literalOf _) rfl⟩

/-- Only an expression can be at fault in a block. -/
theorem factOf_eq_error_iff {node : Term} {d : Dimension} {fault : ListFault} :
    g.factOf node d = .error fault ↔
      d.takesKeywords = true ∧ g.expressionOf node = .error fault := by
  cases d with
  | user | environment | device =>
    refine ⟨fun hfault => ⟨rfl, eq_error_of_map hfault⟩, fun hfault => ?_⟩
    simp only [factOf, hfault.2]
    rfl
  | time | outdoor => simp [factOf, Dimension.takesKeywords]

end Graph

/-! ### Dimensions -/

namespace Scheme
variable {s : Scheme} {g : Graph} {d : Dimension}

/-- The fact of the block for a dimension, if the root is linked to one. -/
def factFor (s : Scheme) (g : Graph) (d : Dimension) : Except ListFault (Option Fact) :=
  match g.firstObject s.root d.link with
  | none => .ok none
  | some node => (g.factOf node d).map some

theorem extractDimension_eq (facts : Facts) :
    s.extractDimension g facts d = (s.factFor g d).map fun o => o.elim facts facts.insert := by
  simp only [extractDimension, factFor]
  cases g.firstObject s.root d.link with
  | none => rfl
  | some node =>
    show (g.factOf node d).map facts.insert = ((g.factOf node d).map some).map _
    cases g.factOf node d <;> rfl

theorem factFor_ok (h : g.Indexed) {o : Option Fact} (ho : s.factFor g d = .ok o) :
    (o.isSome ↔ ∃ node, ⟨s.root, d.link, node⟩ ∈ g.triples) ∧
      ∀ fact, o = some fact → fact.dimension = d ∧
        ∃ node, g.IsFirst s.root d.link node ∧ g.States node fact := by
  rw [factFor] at ho
  cases hlink : g.firstObject s.root d.link with
  | none =>
    rw [hlink] at ho
    cases ho
    refine ⟨⟨nofun, fun ⟨node, hnode⟩ => ?_⟩, nofun⟩
    exact absurd rfl (h.firstObject_eq_none_iff.mp hlink _ hnode rfl)
  | some node =>
    rw [hlink] at ho
    obtain ⟨fact, hfact, rfl⟩ := map_eq_ok ho
    have hfirst := h.firstObject_eq_some_iff.mp hlink
    obtain ⟨hdimension, hstates⟩ := h.states_of_factOf hfact
    obtain ⟨i, hi, -⟩ := id hfirst
    refine ⟨⟨fun _ => ⟨node, Log.mem_triples_of_get? hi⟩, fun _ => rfl⟩, ?_⟩
    rintro _ ⟨⟩
    exact ⟨hdimension, node, hfirst, hstates⟩

/-- The dimension takes keywords, and what the earliest link and the earliest value there lead
to is no expression. -/
def Breaks (s : Scheme) (g : Graph) (d : Dimension) (fault : ListFault) : Prop :=
  d.takesKeywords = true ∧ ∃ node y, g.IsFirst s.root d.link node ∧
    g.IsFirst node Names.Context.expression y ∧ g.readExpression [] y = .error fault

theorem factFor_eq_error_iff (h : g.Indexed) {fault : ListFault} :
    s.factFor g d = .error fault ↔ s.Breaks g d fault := by
  simp only [Breaks, exists_and_left, ← h.expressionOf_eq_error_iff]
  simp only [← h.firstObject_eq_some_iff]
  rw [factFor]
  cases g.firstObject s.root d.link with
  | none => simp
  | some node =>
    have hmap : (g.factOf node d).map some = .error fault ↔ g.factOf node d = .error fault := by
      cases g.factOf node d <;> simp [Except.map]
    simp only [hmap, Graph.factOf_eq_error_iff, Option.some.injEq, exists_eq_left']

/-- Each dimension is read for itself. -/
theorem extractEach_ok (h : g.Indexed) {ds : List Dimension} (hnd : ds.Nodup) {acc facts : Facts}
    (hok : ds.foldlM (s.extractDimension g) acc = .ok facts) :
    (∀ d ∈ ds, ∃ o, s.factFor g d = .ok o ∧ facts.get? d = o.or (acc.get? d)) ∧
      ∀ d ∉ ds, facts.get? d = acc.get? d := by
  induction ds generalizing acc with
  | nil =>
    cases hok
    exact ⟨fun d hd => absurd hd List.not_mem_nil, fun d _ => rfl⟩
  | cons d rest ih =>
    rw [List.foldlM_cons, extractDimension_eq] at hok
    obtain ⟨next, hnext, hok⟩ := bind_eq_ok.mp hok
    obtain ⟨o, ho, rfl⟩ := map_eq_ok hnext
    obtain ⟨hnew, hnd⟩ := List.nodup_cons.mp hnd
    obtain ⟨hmem, hother⟩ := ih hnd hok
    have hget : ∀ e, (o.elim acc acc.insert).get? e =
        if e = d then o.or (acc.get? d) else acc.get? e := by
      intro e
      cases o with
      | none =>
        split
        · next he => rw [he]; rfl
        · rfl
      | some fact =>
        obtain ⟨hdimension, -⟩ := (factFor_ok h ho).2 fact rfl
        show (acc.insert fact).get? e = _
        rw [Facts.get?_insert, hdimension]
        rfl
    refine ⟨List.forall_mem_cons.mpr ⟨⟨o, ho, ?_⟩, fun e he => ?_⟩, fun e he => ?_⟩
    · rw [hother d hnew, hget, if_pos rfl]
    · obtain ⟨o', ho', hfacts⟩ := hmem e he
      have hne : e ≠ d := fun heq => hnew (heq ▸ he)
      exact ⟨o', ho', by rw [hfacts, hget, if_neg hne]⟩
    · obtain ⟨hne, hrest⟩ := not_or.mp (mt List.mem_cons.mpr he)
      rw [hother e hrest, hget, if_neg hne]

/-- Reading ends at the first dimension that is at fault. -/
theorem extractEach_error_iff {ds : List Dimension} {acc : Facts} {fault : ListFault} :
    ds.foldlM (s.extractDimension g) acc = .error fault ↔
      ∃ before d behind, ds = before ++ d :: behind ∧ s.factFor g d = .error fault ∧
        ∀ e ∈ before, ∀ other, s.factFor g e ≠ .error other := by
  induction ds generalizing acc with
  | nil => simp [pure, Except.pure]
  | cons d rest ih =>
    rw [List.foldlM_cons, extractDimension_eq]
    cases hd : s.factFor g d with
    | error other =>
      constructor
      · intro hfault
        cases hfault
        exact ⟨[], d, rest, rfl, hd, fun e he => absurd he List.not_mem_nil⟩
      · rintro ⟨before, e, behind, hsplit, hfault, hbefore⟩
        cases before with
        | nil =>
          obtain ⟨rfl, -⟩ := List.cons.inj hsplit
          rw [hd] at hfault
          exact congrArg Except.error (Except.error.inj hfault)
        | cons c before =>
          obtain ⟨rfl, -⟩ := List.cons.inj hsplit
          exact absurd hd (hbefore d List.mem_cons_self other)
    | ok o =>
      show rest.foldlM (s.extractDimension g) _ = _ ↔ _
      rw [ih]
      constructor
      · rintro ⟨before, e, behind, rfl, hfault, hbefore⟩
        refine ⟨d :: before, e, behind, rfl, hfault, List.forall_mem_cons.mpr ⟨?_, hbefore⟩⟩
        rw [hd]
        nofun
      · rintro ⟨before, e, behind, hsplit, hfault, hbefore⟩
        cases before with
        | nil =>
          obtain ⟨rfl, -⟩ := List.cons.inj hsplit
          rw [hd] at hfault
          cases hfault
        | cons c before =>
          obtain ⟨rfl, rfl⟩ := List.cons.inj hsplit
          exact ⟨before, e, behind, rfl, hfault, (List.forall_mem_cons.mp hbefore).2⟩

/-- A dimension is present exactly if the root is typed and has a link for it. Its fact is then
what the block behind the earliest link states. Reading fails exactly if the root is typed and a
dimension that takes keywords has no expression where one should be, with the fault of the
first such dimension. -/
theorem extract_presence (s : Scheme) (ops : List Graph.Operation) :
    let g := Graph.run ∅ ops
    (∀ facts, s.extract g = .ok facts → ∀ d,
      ((facts.get? d).isSome ↔
        s.typing ∈ g.triples ∧ ∃ node, ⟨s.root, d.link, node⟩ ∈ g.triples) ∧
      ∀ fact, facts.get? d = some fact → fact.dimension = d ∧
        ∃ node, g.IsFirst s.root d.link node ∧ g.States node fact) ∧
    ∀ fault, s.extract g = .error fault ↔ s.typing ∈ g.triples ∧
      ∃ before d behind, Dimension.all = before ++ d :: behind ∧ s.Breaks g d fault ∧
        ∀ e ∈ before, ∀ other, ¬s.Breaks g e other := by
  intro g
  have h : g.Indexed := Graph.indexed_run ops
  rw [extract_eq h]
  by_cases htyped : s.typing ∈ g.triples
  · rw [if_pos htyped]
    refine ⟨fun facts hok d => ?_, fun fault => ?_⟩
    · obtain ⟨o, ho, hget⟩ := (extractEach_ok h (by decide) hok).1 d d.mem_all
      rw [Facts.get?_empty, Option.or_none] at hget
      obtain ⟨hpresent, hstates⟩ := factFor_ok h ho
      rw [hget, hpresent]
      exact ⟨by simp [htyped], hstates⟩
    · simp only [extractEach_error_iff, factFor_eq_error_iff h, ne_eq, htyped, true_and]
  · rw [if_neg htyped]
    refine ⟨fun facts hok d => ?_, fun fault => by simp [htyped]⟩
    cases hok
    simp [htyped]

/-- Of two links for a dimension the earlier one counts. -/
theorem extract_presence_earliest :
    let s : Scheme := ⟨.named "urn:org#policy", ∅, .dayMonthYear⟩
    let g := Graph.run ∅ [.ofTriples [⟨s.root, Dimension.time.link, conditionNode 0⟩,
      ⟨s.root, Dimension.time.link, conditionNode 1⟩, s.typing,
      ⟨conditionNode 1, Names.Context.begin, .plain "08:00"⟩]]
    ∃ facts, s.extract g = .ok facts ∧ (facts.get? .outdoor).isSome = false ∧
      ∃ fact, facts.get? .time = some fact ∧ g.States (conditionNode 0) fact := by
  intro s g
  have hok : (s.extract g).isOk = true := by decide +kernel
  have htyped : s.typing ∈ g.triples := by decide +kernel
  have hoverlooked : ∀ t ∈ g.triples, t.predicate ≠ Dimension.outdoor.link := by decide +kernel
  have hlink : g.get? 0 = some ⟨s.root, Dimension.time.link, conditionNode 0⟩ := by decide +kernel
  obtain ⟨facts, hfacts⟩ : ∃ facts, s.extract g = .ok facts := by
    cases hextract : s.extract g with
    | ok facts => exact ⟨facts, rfl⟩
    | error =>
      rw [hextract] at hok
      cases hok
  have hpresence := (extract_presence s _).1 facts hfacts
  refine ⟨facts, hfacts, ?_, ?_⟩
  · rw [Bool.eq_false_iff, ne_eq, (hpresence .outdoor).1]
    rintro ⟨-, node, hnode⟩
    exact hoverlooked _ hnode rfl
  · obtain ⟨hpresent, hstates⟩ := hpresence .time
    obtain ⟨fact, hfact⟩ := Option.isSome_iff_exists.mp
      (hpresent.mpr ⟨htyped, _, Log.mem_triples_of_get? hlink⟩)
    obtain ⟨-, node, hnode, hfields⟩ := hstates fact hfact
    have hfirst : g.IsFirst s.root Dimension.time.link (conditionNode 0) :=
      ⟨0, hlink, fun j _ _ _ _ => Nat.zero_le j⟩
    rw [hnode.unique hfirst] at hfields
    exact ⟨fact, hfact, hfields⟩

end Scheme

end ContextPolicy
