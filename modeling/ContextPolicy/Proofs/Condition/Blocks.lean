import ContextPolicy.Condition.Compile
import ContextPolicy.Proofs.Condition.Emission
import ContextPolicy.Proofs.Outcome

/-! The blocks of a condition, written and read.

What a compiled block looks like is said once, by one lemma for each kind of body
(`keywordBody_ok`, `timeBody_ok`, `outdoorBody_ok`) and one for the block around it
(`block_ok`). From these follow the numbers that a block takes (`block_spans`), its link
(`earliest_block_link`), and that the fact of a block is read back from it wherever its
triples are answered for (`factOf_block`). -/
namespace ContextPolicy

theorem filled_eq_ok {α : Type} {field : String} {o : Option α} {a : α} :
    Scheme.filled field o = .ok a ↔ o = some a := by
  cases o <;> simp [Scheme.filled]

theorem check_eq_ok {field reason : String} {passed : Bool} {u : Unit} :
    Scheme.check field reason passed = .ok u ↔ passed = true := by
  cases passed <;> simp [Scheme.check]

/-! ### Numbers -/

def OutdoorArea.numbers (area : OutdoorArea) : List Float :=
  [area.latitude, area.longitude, area.radius].filterMap id

/-- The numbers that a fact is made of. -/
def Fact.numbers : Fact → List Float
  | .outdoor area => area.numbers
  | _ => []

/-- The written form of a number is read as the number. -/
def ReadsBack (x : Float) : Prop :=
  Number.readTrimmed (Number.toText x) = some x

instance (x : Float) : Decidable (ReadsBack x) :=
  inferInstanceAs (Decidable (_ = _))

namespace Scheme
variable {s : Scheme} {node : Term} {n : Nat} {body : BlockBody}

/-! ### Shapes -/

theorem keywordBody_ok {d : Dimension} {expression : Option Expression}
    (h : s.keywordBody d expression node n = .ok body) :
    ∃ e c, expression = some e ∧ s.clause d e = .ok c ∧ body = ⟨(e.emit n).triples ++
      [⟨node, Names.Context.expression, (e.emit n).node⟩], ⟨[c]⟩, (e.emit n).next⟩ := by
  cases expression with
  | none => cases h
  | some e =>
    rw [keywordBody] at h
    cases hu : s.firstUnknown? d e with
    | some word => simp [hu] at h
    | none =>
      simp only [hu] at h
      obtain ⟨c, hc, hbody⟩ := bind_eq_ok.mp h
      cases hbody
      exact ⟨e, c, rfl, hc, rfl⟩

theorem readTimestamp_eq_ok {field text : String} {t : Timestamp} :
    s.readTimestamp field text = .ok t ↔ Timestamp.read s.dateFormat text = some t := by
  rw [readTimestamp]
  cases Timestamp.read s.dateFormat text <;> simp

theorem timeBody_ok {window : TimeWindow} (h : s.timeBody window node n = .ok body) :
    ∃ begin «end» first last, window = ⟨some begin, some «end»⟩ ∧
      Timestamp.read s.dateFormat begin = some first ∧
      Timestamp.read s.dateFormat «end» = some last ∧
      body = ⟨[⟨node, Names.Context.begin, .plain begin⟩,
        ⟨node, Names.Context.end, .plain «end»⟩], timeAsk first last, n⟩ := by
  rw [timeBody] at h
  obtain ⟨begin, hbegin, h⟩ := bind_eq_ok.mp h
  obtain ⟨«end», hend, h⟩ := bind_eq_ok.mp h
  obtain ⟨first, hfirst, h⟩ := bind_eq_ok.mp h
  obtain ⟨last, hlast, h⟩ := bind_eq_ok.mp h
  obtain ⟨_, -, h⟩ := bind_eq_ok.mp h
  obtain ⟨_, -, h⟩ := bind_eq_ok.mp h
  cases h
  refine ⟨begin, «end», first, last, ?_, readTimestamp_eq_ok.mp hfirst,
    readTimestamp_eq_ok.mp hlast, rfl⟩
  rw [← filled_eq_ok.mp hbegin, ← filled_eq_ok.mp hend]

theorem outdoorBody_ok {area : OutdoorArea} (h : outdoorBody area node n = .ok body) :
    ∃ latitude longitude radius ask,
      area = ⟨some latitude, some longitude, some radius, area.unit⟩ ∧
      (latitude.isFinite ∧ longitude.isFinite ∧ radius.isFinite) ∧
      body = ⟨[⟨node, Names.Context.latitude, decimal latitude⟩,
        ⟨node, Names.Context.longitude, decimal longitude⟩,
        ⟨node, Names.Context.radius, decimal radius⟩,
        ⟨node, Names.Context.unit, .plain area.unit.symbol⟩], ask, n⟩ := by
  rw [outdoorBody] at h
  obtain ⟨latitude, hlatitude, h⟩ := bind_eq_ok.mp h
  obtain ⟨longitude, hlongitude, h⟩ := bind_eq_ok.mp h
  obtain ⟨radius, hradius, h⟩ := bind_eq_ok.mp h
  obtain ⟨_, hlat, h⟩ := bind_eq_ok.mp h
  obtain ⟨_, hlong, h⟩ := bind_eq_ok.mp h
  obtain ⟨_, hrad, h⟩ := bind_eq_ok.mp h
  cases h
  refine ⟨latitude, longitude, radius, _, ?_, ?_, rfl⟩
  · rw [← filled_eq_ok.mp hlatitude, ← filled_eq_ok.mp hlongitude, ← filled_eq_ok.mp hradius]
  · have hlat := check_eq_ok.mp hlat
    have hlong := check_eq_ok.mp hlong
    have hrad := check_eq_ok.mp hrad
    simp only [isBetween, Bool.and_eq_true] at hlat hlong hrad
    exact ⟨hlat.1.1, hlong.1.1, hrad.1⟩

theorem block_ok {fact : Fact} {ts : List Triple} {next : Nat}
    (h : s.block fact n = .ok (ts, next)) :
    ∃ body, s.body fact (conditionNode n) (n + 1) = .ok body ∧ next = body.next ∧
      ts = ⟨s.root, fact.dimension.link, conditionNode n⟩ ::
        ⟨conditionNode n, Names.Rdf.type, .named fact.dimension.type⟩ ::
          (body.triples ++ [⟨conditionNode n, Names.Context.condition,
            .typed body.ask.toText Names.Context.askQuery⟩]) := by
  rw [block] at h
  obtain ⟨body, hbody, h⟩ := bind_eq_ok.mp h
  cases h
  exact ⟨body, hbody, rfl, rfl⟩

theorem blocks_cons_ok {fact : Fact} {rest : List Fact} {ts : List Triple}
    (h : s.blocks n (fact :: rest) = .ok ts) :
    ∃ us next vs, s.block fact n = .ok (us, next) ∧ s.blocks next rest = .ok vs ∧
      ts = us ++ vs := by
  rw [blocks] at h
  obtain ⟨⟨us, next⟩, hus, h⟩ := bind_eq_ok.mp h
  obtain ⟨vs, hvs, h⟩ := bind_eq_ok.mp h
  cases h
  exact ⟨us, next, vs, hus, hvs, rfl⟩

/-! ### Numbers and properties of a block -/

/-- A body is content, and about its block or the nodes numbered behind it. -/
structure Body (n : Nat) (body : BlockBody) : Prop where
  le_next : n + 1 ≤ body.next
  spans : Spans n body.next body.triples
  content : ∀ t ∈ body.triples, isContent t.predicate

/-- A body of fields only. -/
theorem Body.of_fields {ask : Ask} {fields : List Triple}
    (hsubject : ∀ t ∈ fields, t.subject = conditionNode n)
    (hcontent : ∀ t ∈ fields, isContent t.predicate) : Body n ⟨fields, ask, n + 1⟩ where
  le_next := Nat.le_refl _
  spans := spans_node fun t ht _ => hsubject t ht
  content := hcontent

theorem body_of_keywordBody {d : Dimension} {expression : Option Expression}
    (h : s.keywordBody d expression (conditionNode n) (n + 1) = .ok body) : Body n body := by
  obtain ⟨e, c, -, -, rfl⟩ := keywordBody_ok h
  have hle := Expression.le_next_emit (n + 1) e
  refine ⟨hle, ?_, ?_⟩
  · refine ((Expression.emit_spans (n + 1) e).mono (Nat.le_succ n) (Nat.le_refl _)).append ?_
    exact (spans_node fun t ht _ => by rw [List.mem_singleton.mp ht]).mono (Nat.le_refl n) hle
  · intro t ht
    rcases List.mem_append.mp ht with ht | ht
    · exact Expression.emit_content (n + 1) e t ht
    · rw [List.mem_singleton.mp ht]
      exact (by decide : isContent Names.Context.expression)

theorem body_ok {fact : Fact} (h : s.body fact (conditionNode n) (n + 1) = .ok body) :
    Body n body := by
  cases fact with
  | user e | environment e | device e => exact body_of_keywordBody h
  | time window =>
    obtain ⟨_, _, _, _, -, -, -, rfl⟩ := timeBody_ok h
    refine Body.of_fields ?_ ?_ <;> simp only [List.forall_mem_cons]
    · simp
    · exact ⟨by decide, by decide, by simp⟩
  | outdoor area =>
    obtain ⟨_, _, _, _, -, -, rfl⟩ := outdoorBody_ok h
    refine Body.of_fields ?_ ?_ <;> simp only [List.forall_mem_cons]
    · simp
    · exact ⟨by decide, by decide, by decide, by decide, by simp⟩

theorem isContent_type : isContent Names.Rdf.type = false := by
  decide

theorem isContent_condition : isContent Names.Context.condition = false := by
  decide

/-- A block takes its own number and those that its body takes. -/
theorem block_spans {fact : Fact} {ts : List Triple} {next : Nat}
    (h : s.block fact n = .ok (ts, next)) : n + 1 ≤ next ∧ Spans n next ts := by
  obtain ⟨body, hbody, rfl, rfl⟩ := block_ok h
  have hb := body_ok hbody
  refine ⟨hb.le_next, fun t ht hcontent => ?_⟩
  simp only [List.mem_cons, List.mem_append, List.not_mem_nil, or_false] at ht
  rcases ht with rfl | rfl | ht | rfl
  · simp [isContent_link] at hcontent
  · simp [isContent_type] at hcontent
  · exact hb.spans t ht hcontent
  · simp [isContent_condition] at hcontent

theorem blocks_spans {facts : List Fact} {ts : List Triple} (h : s.blocks n facts = .ok ts) :
    ∃ m, n ≤ m ∧ Spans n m ts := by
  induction facts generalizing n ts with
  | nil =>
    cases h
    exact ⟨n, Nat.le_refl n, Spans.nil⟩
  | cons fact rest ih =>
    obtain ⟨us, next, vs, hus, hvs, rfl⟩ := blocks_cons_ok h
    obtain ⟨hle, hspans⟩ := block_spans hus
    obtain ⟨m, hm, hrest⟩ := ih hvs
    exact ⟨m, by omega, (hspans.mono (Nat.le_refl n) hm).append (hrest.mono (by omega) (by omega))⟩

/-! ### Links -/

theorem link_injective {d e : Dimension} (h : d.link = e.link) : d = e := by
  cases d <;> cases e <;> first | rfl | exact absurd h (by decide)

theorem type_ne_link (d : Dimension) : Names.Rdf.type ≠ d.link := by
  cases d <;> decide

theorem type_ne_condition : Names.Rdf.type ≠ Names.Context.condition := by
  decide

theorem condition_ne_link (d : Dimension) : Names.Context.condition ≠ d.link := by
  cases d <;> decide

/-- The only link among the triples of a block is its own, to its first node. -/
theorem link_of_mem_block {fact : Fact} {ts : List Triple} {next : Nat} {t : Triple}
    {d : Dimension} (h : s.block fact n = .ok (ts, next)) (ht : t ∈ ts)
    (hlink : t.predicate = d.link) :
    d = fact.dimension ∧ t = ⟨s.root, fact.dimension.link, conditionNode n⟩ := by
  obtain ⟨body, hbody, rfl, rfl⟩ := block_ok h
  simp only [List.mem_cons, List.mem_append, List.not_mem_nil, or_false] at ht
  rcases ht with rfl | rfl | ht | rfl
  · exact ⟨(link_injective hlink).symm, rfl⟩
  · exact absurd hlink (type_ne_link d)
  · have hcontent := (body_ok hbody).content t ht
    rw [hlink, isContent_link] at hcontent
    cases hcontent
  · exact absurd hlink (condition_ne_link d)

/-- The link of a block is to its first node, and there is no link for another dimension. -/
theorem earliest_block_link {fact : Fact} {ts : List Triple} {next : Nat} (d : Dimension)
    (h : s.block fact n = .ok (ts, next)) : earliest ts s.root d.link =
      if d = fact.dimension then some (conditionNode n) else none := by
  by_cases hd : d = fact.dimension
  · obtain ⟨body, hbody, rfl, rfl⟩ := block_ok h
    rw [if_pos hd, hd]
    exact earliest_cons_of_eq rfl rfl
  · rw [if_neg hd]
    exact earliest_eq_none fun t ht _ hlink => hd (link_of_mem_block h ht hlink).1

/-! ### Reading back -/

section Read
variable {g : Graph} {ρ : String → String}

theorem expressionOf_keywordBody {d : Dimension} {expression : Option Expression}
    (h : s.keywordBody d expression (conditionNode n) (n + 1) = .ok body)
    (hans : g.Answers ρ body.triples) :
    g.expressionOf ((conditionNode n).rename ρ) = .ok expression := by
  obtain ⟨e, c, rfl, -, rfl⟩ := keywordBody_ok h
  have hspans := Expression.emit_spans (n + 1) e
  have hne := subject_ne_of_spans hspans (Nat.lt_succ_self n)
  have hcontent := Expression.emit_content (n + 1) e
  have hmem : ⟨conditionNode n, Names.Context.expression, (e.emit (n + 1)).node⟩ ∈
      (e.emit (n + 1)).triples ++
        [⟨conditionNode n, Names.Context.expression, (e.emit (n + 1)).node⟩] := by
    simp
  have hnode : g.firstObject ((conditionNode n).rename ρ) Names.Context.expression =
      some ((e.emit (n + 1)).node.rename ρ) := by
    refine (hans _ hmem (by decide : isContent Names.Context.expression) _ (by decide)).trans ?_
    rw [earliest_eq_some hmem]
    · rfl
    · intro t ht hsubject _
      rcases List.mem_append.mp ht with ht | ht
      · exact absurd hsubject (hne t ht (hcontent t ht))
      · rw [List.mem_singleton.mp ht]
  have hreads : g.Reads ((e.emit (n + 1)).node.rename ρ) e := by
    refine reads_emit (n + 1) e (hans.left ?_)
    intro u hu v hv hcu _
    rw [List.mem_singleton.mp hv]
    exact hne u hu hcu
  rw [Graph.expressionOf, hnode]
  exact hreads.readExpression fun _ hy => absurd hy List.not_mem_nil

theorem timeWindowOf_timeBody {window : TimeWindow}
    (h : s.timeBody window (conditionNode n) (n + 1) = .ok body)
    (hans : g.Answers ρ body.triples) :
    g.timeWindowOf ((conditionNode n).rename ρ) = window := by
  obtain ⟨begin, «end», first, last, rfl, -, -, rfl⟩ := timeBody_ok h
  have hlookup := hans _ List.mem_cons_self (by decide : isContent Names.Context.begin)
  rw [Graph.timeWindowOf, Graph.literalOf, Graph.literalOf, hlookup _ (by decide),
    hlookup _ (by decide)]
  simp [earliest, Names.Context.begin, Names.Context.end, Term.plain, Term.rename,
    Term.literalValue?]

theorem outdoorAreaOf_outdoorBody {area : OutdoorArea}
    (h : outdoorBody area (conditionNode n) (n + 1) = .ok body)
    (hnum : ∀ x ∈ area.numbers, x.isFinite → ReadsBack x) (hans : g.Answers ρ body.triples) :
    g.outdoorAreaOf ((conditionNode n).rename ρ) = area := by
  obtain ⟨latitude, longitude, radius, ask, harea, ⟨hlat, hlong, hrad⟩, rfl⟩ := outdoorBody_ok h
  have hlookup := hans _ List.mem_cons_self (by decide : isContent Names.Context.latitude)
  rw [harea] at hnum
  have hlat : Number.readTrimmed (Number.toText latitude) = some latitude :=
    hnum latitude (by simp [OutdoorArea.numbers]) hlat
  have hlong : Number.readTrimmed (Number.toText longitude) = some longitude :=
    hnum longitude (by simp [OutdoorArea.numbers]) hlong
  have hrad : Number.readTrimmed (Number.toText radius) = some radius :=
    hnum radius (by simp [OutdoorArea.numbers]) hrad
  rw [Graph.outdoorAreaOf]
  simp only [Graph.numberOf, Graph.literalOf]
  rw [hlookup _ (by decide), hlookup _ (by decide), hlookup _ (by decide), hlookup _ (by decide)]
  rw [harea]
  simp [earliest, Names.Context.latitude, Names.Context.longitude, Names.Context.radius,
    Names.Context.unit, decimal, Term.plain, Term.typed, Term.rename, Term.literalValue?,
    DistanceUnit.ofSymbol?_symbol, hlat, hlong, hrad]

/-- The fact of a block is read from its first node. -/
theorem factOf_block {fact : Fact} {ts : List Triple} {next : Nat}
    (h : s.block fact n = .ok (ts, next))
    (hnum : ∀ x ∈ fact.numbers, x.isFinite → ReadsBack x) (hans : g.Answers ρ ts) :
    g.factOf ((conditionNode n).rename ρ) fact.dimension = .ok fact := by
  obtain ⟨body, hbody, rfl, rfl⟩ := block_ok h
  have hown : g.Answers ρ body.triples := by
    refine ((hans.tail (isContent_link _)).tail isContent_type).left ?_
    intro u _ v hv _ hcv
    rw [List.mem_singleton.mp hv, isContent_condition] at hcv
    cases hcv
  cases fact with
  | user e | environment e | device e =>
    show (g.expressionOf _).map _ = _
    rw [expressionOf_keywordBody hbody hown]
    rfl
  | time window =>
    show Except.ok (Fact.time (g.timeWindowOf _)) = _
    rw [timeWindowOf_timeBody hbody hown]
  | outdoor area =>
    show Except.ok (Fact.outdoor (g.outdoorAreaOf _)) = _
    rw [outdoorAreaOf_outdoorBody hbody hnum hown]

end Read

end Scheme

end ContextPolicy
