import ContextPolicy.Proofs.Condition.Requirements
import ContextPolicy.Proofs.Condition.RoundTrip
import ContextPolicy.Proofs.Number.Exact
import ContextPolicy.Proofs.Timestamp.Reading

/-! Which facts make a condition, and what is said about those that do not.

A fact is valid on its own (`Scheme.Valid`): its keywords are known, its window has two moments
of one kind that do not run backwards if they are days, its circle has a centre on the earth and
a radius. What is looked at for it, in which order and with which fault, is the list of its
requirements (`Scheme.requirements`), which are met together exactly if it is valid. Facts are
compiled if they all are valid, and otherwise the fault is that of the first dimension that is
not and of the first of its requirements that is not met (`Scheme.compile_decides`). Numbers
are bounded as the numbers that doubles stand for, and days as they are counted. -/
namespace ContextPolicy

open Requirement (FirstUnmet Obeys)

/-! ### Requirements -/

namespace Timestamp

/-- Moments of one kind, days not running backwards. -/
inductive Spans : Timestamp → Timestamp → Prop
  | dates {a b : Date} (h : a.ordinal ≤ b.ordinal) : Spans (.date a) (.date b)
  | times (a b : TimeOfDay) : Spans (.time a) (.time b)

end Timestamp

/-- The fields that the facts of a dimension have. -/
def Dimension.fields : Dimension → List String
  | time => ["begin", "end"]
  | outdoor => ["latitude", "longitude", "radius"]
  | d => [d.name]

namespace Scheme

/-- The vocabulary has every keyword in some case. -/
def Knows (s : Scheme) (d : Dimension) (e : Expression) : Prop :=
  ∀ word ∈ e.keywords, Text.lowercase word ∈ s.vocabulary.keywords d

/-- The field is filled in with a moment. -/
def Gives (s : Scheme) (field : Option String) (t : Timestamp) : Prop :=
  ∃ text, field = some text ∧ Timestamp.Spelled s.dateFormat text.toList t

/-- What makes a fact one that can be tested for. -/
def Valid (s : Scheme) : Fact → Prop
  | .user expression => ∃ e, expression = some e ∧ s.Knows .user e
  | .time window => ∃ first last, s.Gives window.begin first ∧ s.Gives window.end last ∧
    first.Spans last
  | .outdoor area => (∃ x ∈ area.latitude.bind Number.rational?, -90 ≤ x ∧ x ≤ 90) ∧
    (∃ x ∈ area.longitude.bind Number.rational?, -180 ≤ x ∧ x ≤ 180) ∧
    ∃ x ∈ area.radius.bind Number.rational?, 0 < x
  | .environment expression => ∃ e, expression = some e ∧ s.Knows .environment e
  | .device expression => ∃ e, expression = some e ∧ s.Knows .device e

def keywordRequirements (s : Scheme) (d : Dimension) (expression : Option Expression) :
    List Requirement :=
  ⟨.missing d.name, expression.isSome⟩ :: (expression.elim [] Expression.keywords).map fun word =>
    ⟨unknownKeyword d word, Text.lowercase word ∈ s.vocabulary.keywords d⟩

def timeRequirements (s : Scheme) (window : TimeWindow) : List Requirement :=
  let expected := "expected " ++ s.dateFormat.pattern ++ " or HH:MM"
  [⟨.missing "begin", window.begin.isSome⟩,
    ⟨.missing "end", window.end.isSome⟩,
    ⟨⟨"begin", expected⟩, ∃ t, s.Gives window.begin t⟩,
    ⟨⟨"end", expected⟩, ∃ t, s.Gives window.end t⟩,
    ⟨⟨"end", "must be a date when begin is a date, a time when begin is a time"⟩,
      ∀ first last, s.Gives window.begin first → s.Gives window.end last →
        first.isDate = last.isDate⟩,
    ⟨⟨"end", "is before begin"⟩,
      ∀ a b, s.Gives window.begin (.date a) → s.Gives window.end (.date b) →
        a.ordinal ≤ b.ordinal⟩]

def outdoorRequirements (area : OutdoorArea) : List Requirement :=
  [⟨.missing "latitude", area.latitude.isSome⟩,
    ⟨.missing "longitude", area.longitude.isSome⟩,
    ⟨.missing "radius", area.radius.isSome⟩,
    ⟨⟨"latitude", "must be between -90 and 90"⟩,
      ∃ x ∈ area.latitude.bind Number.rational?, -90 ≤ x ∧ x ≤ 90⟩,
    ⟨⟨"longitude", "must be between -180 and 180"⟩,
      ∃ x ∈ area.longitude.bind Number.rational?, -180 ≤ x ∧ x ≤ 180⟩,
    ⟨⟨"radius", "must be a positive number"⟩, ∃ x ∈ area.radius.bind Number.rational?, 0 < x⟩]

/-- What is asked of a fact, in order. -/
def requirements (s : Scheme) : Fact → List Requirement
  | .user e => s.keywordRequirements .user e
  | .time window => s.timeRequirements window
  | .outdoor area => outdoorRequirements area
  | .environment e => s.keywordRequirements .environment e
  | .device e => s.keywordRequirements .device e

variable {s : Scheme} {d : Dimension}

theorem keywordRequirements_met {expression : Option Expression} :
    (∀ r ∈ s.keywordRequirements d expression, r.met) ↔
      ∃ e, expression = some e ∧ s.Knows d e := by
  cases expression with
  | none => simp [keywordRequirements]
  | some e => simp [keywordRequirements, Knows]

theorem Gives.unique {field : Option String} {t t' : Timestamp} (h : s.Gives field t)
    (h' : s.Gives field t') : t = t' := by
  obtain ⟨text, rfl, hspelled⟩ := h
  obtain ⟨_, ⟨⟩, hspelled'⟩ := h'
  exact hspelled.unique hspelled'

theorem Gives.isSome {field : Option String} {t : Timestamp} (h : s.Gives field t) :
    field.isSome := by
  obtain ⟨text, rfl, -⟩ := h
  rfl

theorem timeRequirements_met {window : TimeWindow} :
    (∀ r ∈ s.timeRequirements window, r.met) ↔
      ∃ first last, s.Gives window.begin first ∧ s.Gives window.end last ∧ first.Spans last := by
  simp only [timeRequirements, List.forall_mem_cons, List.not_mem_nil, false_implies,
    implies_true, and_true]
  constructor
  · rintro ⟨-, -, ⟨first, hfirst⟩, ⟨last, hlast⟩, hkind, horder⟩
    have hsame := hkind first last hfirst hlast
    refine ⟨first, last, hfirst, hlast, ?_⟩
    cases first with
    | date a =>
      cases last with
      | date b => exact .dates (horder a b hfirst hlast)
      | time b => cases hsame
    | time a =>
      cases last with
      | date b => cases hsame
      | time b => exact .times a b
  · rintro ⟨first, last, hfirst, hlast, hspans⟩
    refine ⟨hfirst.isSome, hlast.isSome, ⟨first, hfirst⟩, ⟨last, hlast⟩, ?_, ?_⟩
    · intro first' last' hfirst' hlast'
      rw [hfirst'.unique hfirst, hlast'.unique hlast]
      cases hspans <;> rfl
    · intro a b ha hb
      obtain rfl := ha.unique hfirst
      obtain rfl := hb.unique hlast
      cases hspans with
      | dates h => exact h

theorem isSome_of_rational? {o : Option Float} {p : ℚ → Prop}
    (h : ∃ x ∈ o.bind Number.rational?, p x) : o.isSome := by
  obtain ⟨x, hx, -⟩ := h
  obtain ⟨y, rfl, -⟩ := Option.bind_eq_some_iff.mp hx
  rfl

theorem outdoorRequirements_met {area : OutdoorArea} :
    (∀ r ∈ outdoorRequirements area, r.met) ↔ s.Valid (.outdoor area) := by
  simp only [outdoorRequirements, Valid, List.forall_mem_cons, List.not_mem_nil, false_implies,
    implies_true, and_true]
  constructor
  · rintro ⟨-, -, -, hlatitude, hlongitude, hradius⟩
    exact ⟨hlatitude, hlongitude, hradius⟩
  · rintro ⟨hlatitude, hlongitude, hradius⟩
    exact ⟨isSome_of_rational? hlatitude, isSome_of_rational? hlongitude,
      isSome_of_rational? hradius, hlatitude, hlongitude, hradius⟩

/-- A fault is about a field of its dimension. -/
theorem field_mem_fields {fact : Fact} {fault : ValidationFault}
    (h : FirstUnmet (s.requirements fact) fault) : fault.field ∈ fact.dimension.fields := by
  have hkeyword : ∀ {d : Dimension} {expression : Option Expression},
      ∀ r ∈ s.keywordRequirements d expression, r.fault.field = d.name := by
    intro d expression r hr
    obtain rfl | hr := List.mem_cons.mp hr
    · rfl
    · obtain ⟨word, -, rfl⟩ := List.mem_map.mp hr
      rfl
  obtain ⟨r, hr, rfl⟩ := Requirement.exists_of_firstUnmet h
  cases fact with
  | user | environment | device => exact List.mem_singleton.mpr (hkeyword r hr)
  | time window =>
    have hfield : r.fault.field ∈ ["begin", "end", "begin", "end", "end", "end"] :=
      List.mem_map_of_mem (f := fun r => r.fault.field) hr
    exact (by decide : _ ⊆ Dimension.time.fields) hfield
  | outdoor area =>
    have hfield : r.fault.field ∈
        ["latitude", "longitude", "radius", "latitude", "longitude", "radius"] :=
      List.mem_map_of_mem (f := fun r => r.fault.field) hr
    exact (by decide : _ ⊆ Dimension.outdoor.fields) hfield

/-- A fact is valid exactly if it meets what is asked of it. -/
theorem valid_iff {fact : Fact} : s.Valid fact ↔ ∀ r ∈ s.requirements fact, r.met := by
  cases fact with
  | user | environment | device => exact keywordRequirements_met.symm
  | time => exact timeRequirements_met.symm
  | outdoor => exact outdoorRequirements_met.symm

/-! ### Bodies -/

theorem filled_obeys {α : Type} {field : String} {o : Option α} :
    Obeys (filled field o) [⟨.missing field, o.isSome⟩] := by
  cases o with
  | none => exact .single nofun fun _ => rfl
  | some a => exact .single (fun _ => ⟨a, rfl⟩) fun h => absurd rfl h

theorem check_obeys {field reason : String} {passed : Bool} {p : Prop} (h : passed = true ↔ p) :
    Obeys (check field reason passed) [⟨⟨field, reason⟩, p⟩] := by
  refine .single (fun hp => ⟨(), check_eq_ok.mpr (h.mpr hp)⟩) fun hp => ?_
  rw [check, if_neg (mt h.mp hp)]

theorem lookup_isSome_iff {word : String} :
    (s.vocabulary.lookup d word).isSome ↔ Text.lowercase word ∈ s.vocabulary.keywords d := by
  rw [Vocabulary.lookup, Vocabulary.keywords, Std.ExtTreeMap.mem_keys,
    Std.ExtTreeMap.mem_iff_isSome_getElem?]

mutual

/-- Once every keyword is known, the clause of an expression does not fail. -/
theorem clause_of_known (e : Expression)
    (h : ∀ word ∈ e.keywords, (s.vocabulary.lookup d word).isSome) : ∃ c, s.clause d e = .ok c := by
  match e, h with
  | .keyword word, h =>
    obtain ⟨b, hb⟩ := Option.isSome_iff_exists.mp (h word (List.mem_singleton.mpr rfl))
    exact ⟨_, by rw [clause, keywordClause, hb]⟩
  | .not operand, h =>
    obtain ⟨c, hc⟩ := clause_of_known operand h
    exact ⟨_, by rw [clause, hc]; rfl⟩
  | .all operands, h =>
    obtain ⟨cs, hcs⟩ := clauses_of_known operands h
    exact ⟨_, by rw [clause, hcs]; rfl⟩
  | .any operands, h =>
    obtain ⟨cs, hcs⟩ := clauses_of_known operands h
    exact ⟨_, by rw [clause, hcs]; rfl⟩

theorem clauses_of_known (es : List Expression)
    (h : ∀ word ∈ Expression.keywordsOfAll es, (s.vocabulary.lookup d word).isSome) :
    ∃ cs, s.clauses d es = .ok cs := by
  match es, h with
  | [], _ => exact ⟨[], rfl⟩
  | e :: rest, h =>
    obtain ⟨c, hc⟩ := clause_of_known e fun word hw => h word (List.mem_append_left _ hw)
    obtain ⟨cs, hcs⟩ := clauses_of_known rest fun word hw => h word (List.mem_append_right _ hw)
    exact ⟨c :: cs, by rw [clauses, hc, hcs]; rfl⟩

end

/-- The first word that is not known is the first requirement that is not met. -/
theorem firstUnmet_words_iff {words : List String} {fault : ValidationFault} :
    FirstUnmet (words.map fun word =>
        ⟨unknownKeyword d word, Text.lowercase word ∈ s.vocabulary.keywords d⟩) fault ↔
      ∃ word, words.find? (fun word => (s.vocabulary.lookup d word).isNone) = some word ∧
        fault = unknownKeyword d word := by
  induction words with
  | nil => simp [Requirement.not_firstUnmet_nil]
  | cons word rest ih =>
    rw [List.map_cons, Requirement.firstUnmet_cons_iff, ih, ← lookup_isSome_iff]
    cases hb : s.vocabulary.lookup d word with
    | none => simp [hb, eq_comm]
    | some b => simp [hb]

theorem keywordBody_obeys {expression : Option Expression} {node : Term} {n : Nat} :
    Obeys (s.keywordBody d expression node n) (s.keywordRequirements d expression) := by
  intro fault
  rw [keywordRequirements, Requirement.firstUnmet_cons_iff, firstUnmet_words_iff]
  cases expression with
  | none => simp [keywordBody, eq_comm]
  | some e =>
    simp only [keywordBody, firstUnknown?, Option.elim_some, Option.isSome_some,
      not_true_eq_false, false_and, true_and, false_or]
    cases hunknown : e.keywords.find? fun word => (s.vocabulary.lookup d word).isNone with
    | some word => simp [eq_comm]
    | none =>
      -- the clause looks each keyword up again
      have hknown : ∀ word ∈ e.keywords, (s.vocabulary.lookup d word).isSome := by
        simpa [Option.isSome_iff_ne_none] using hunknown
      obtain ⟨c, hc⟩ := clause_of_known e hknown
      simp [hc, pure, Except.pure, bind, Except.bind]

theorem readTimestamp_obeys {field text : String} {o : Option String} (h : o = some text) :
    Obeys (s.readTimestamp field text)
      [⟨⟨field, "expected " ++ s.dateFormat.pattern ++ " or HH:MM"⟩, ∃ t, s.Gives o t⟩] := by
  refine .single ?_ fun hnone => ?_
  · rintro ⟨t, text', htext, hspelled⟩
    obtain rfl := Option.some.inj (h.symm.trans htext)
    exact ⟨t, readTimestamp_eq_ok.mpr (Timestamp.read_eq_some_iff.mpr hspelled)⟩
  · rw [readTimestamp]
    cases hread : Timestamp.read s.dateFormat text with
    | none => rfl
    | some t => exact absurd ⟨t, text, h, Timestamp.read_eq_some_iff.mp hread⟩ hnone

theorem gives_of_read {field text : String} {o : Option String} {t : Timestamp} (h : o = some text)
    (ht : s.readTimestamp field text = .ok t) {t' : Timestamp} : s.Gives o t' ↔ t' = t := by
  have hspelled := Timestamp.read_eq_some_iff.mp (readTimestamp_eq_ok.mp ht)
  have hgives : s.Gives o t := ⟨text, h, hspelled⟩
  exact ⟨fun ht' => ht'.unique hgives, fun heq => heq ▸ hgives⟩

theorem timeBody_obeys {window : TimeWindow} {node : Term} {n : Nat} :
    Obeys (s.timeBody window node n) (s.timeRequirements window) := by
  refine Obeys.bind filled_obeys fun begin hbegin => ?_
  refine Obeys.bind filled_obeys fun «end» hend => ?_
  replace hbegin := filled_eq_ok.mp hbegin
  replace hend := filled_eq_ok.mp hend
  refine Obeys.bind (readTimestamp_obeys hbegin) fun first hfirst => ?_
  refine Obeys.bind (readTimestamp_obeys hend) fun last hlast => ?_
  have hgives : ∀ t, s.Gives window.begin t ↔ t = first := fun t => gives_of_read hbegin hfirst
  have hgives' : ∀ t, s.Gives window.end t ↔ t = last := fun t => gives_of_read hend hlast
  refine Obeys.bind (check_obeys ?_) fun _ _ => Obeys.bind (check_obeys ?_) fun _ _ => .ok _
  · simp [hgives, hgives']
  · have hspelled := Timestamp.read_eq_some_iff.mp (readTimestamp_eq_ok.mp hfirst)
    have hspelled' := Timestamp.read_eq_some_iff.mp (readTimestamp_eq_ok.mp hlast)
    simp only [hgives, hgives']
    cases first with
    | time a => simp [Timestamp.isDate]
    | date a =>
      cases last with
      | time b => simp [Timestamp.isDate, Timestamp.isBefore]
      | date b =>
        have hbefore := hspelled'.isBefore_iff hspelled
        simp only [Timestamp.isDate, Bool.true_and, Bool.not_eq_true', ← Bool.not_eq_true,
          hbefore]
        simp

theorem isBetween_iff {low high x : Float} {p q : ℚ} (hlow : Number.rational? low = some p)
    (hhigh : Number.rational? high = some q) :
    isBetween low high x = true ↔ ∃ y ∈ Number.rational? x, p ≤ y ∧ y ≤ q := by
  rw [isBetween, ← Number.isSome_rational?]
  cases hx : Number.rational? x with
  | none => simp
  | some y => simp [Number.lt_iff hx hlow, Number.lt_iff hhigh hx]

theorem isPositive_iff {x : Float} :
    (x.isFinite && !(x ≤ 0)) = true ↔ ∃ y ∈ Number.rational? x, 0 < y := by
  rw [← Number.isSome_rational?]
  cases hx : Number.rational? x with
  | none => simp
  | some y => simp [Number.le_iff hx Number.rational?_bounds.1]

theorem outdoorBody_obeys {area : OutdoorArea} {node : Term} {n : Nat} :
    Obeys (outdoorBody area node n) (outdoorRequirements area) := by
  obtain ⟨-, ⟨hsouth, hnorth⟩, hwest, heast⟩ := Number.rational?_bounds
  refine Obeys.bind filled_obeys fun latitude hlatitude => ?_
  refine Obeys.bind filled_obeys fun longitude hlongitude => ?_
  refine Obeys.bind filled_obeys fun radius hradius => ?_
  rw [filled_eq_ok.mp hlatitude, filled_eq_ok.mp hlongitude, filled_eq_ok.mp hradius]
  refine Obeys.bind (check_obeys (isBetween_iff hsouth hnorth)) fun _ _ => ?_
  refine Obeys.bind (check_obeys (isBetween_iff hwest heast)) fun _ _ => ?_
  exact Obeys.bind (check_obeys isPositive_iff) fun _ _ => .ok _

/-! ### Conditions -/

theorem body_obeys {fact : Fact} {node : Term} {n : Nat} :
    Obeys (s.body fact node n) (s.requirements fact) := by
  cases fact with
  | user | environment | device => exact keywordBody_obeys
  | time => exact timeBody_obeys
  | outdoor => exact outdoorBody_obeys

theorem block_obeys {fact : Fact} {n : Nat} : Obeys (s.block fact n) (s.requirements fact) := by
  rw [block, ← List.append_nil (s.requirements fact)]
  exact Obeys.bind body_obeys fun _ _ => .ok _

theorem blocks_obeys {n : Nat} {facts : List Fact} :
    Obeys (s.blocks n facts) (facts.flatMap s.requirements) := by
  induction facts generalizing n with
  | nil => exact .ok []
  | cons fact rest ih =>
    rw [blocks, List.flatMap_cons]
    refine Obeys.bind block_obeys fun block _ => ?_
    rw [← List.append_nil (rest.flatMap s.requirements)]
    exact Obeys.bind ih fun _ _ => .ok _

/-- What is asked of facts, dimension by dimension. -/
theorem compile_obeys {facts : Facts} : Obeys (s.compile facts)
    (Dimension.all.flatMap fun d => (facts.get? d).elim [] s.requirements) := by
  have hlist : Dimension.all.flatMap (fun d => (facts.get? d).elim [] s.requirements) =
      facts.toList.flatMap s.requirements := by
    rw [Facts.toList_eq_filterMap, List.filterMap_eq_flatMap_toList, List.flatMap_assoc]
    congr 1
    funext d
    cases facts.get? d <;> simp
  rw [hlist, compile]
  split
  · next hempty =>
    have hnone : facts.toList = [] := by
      rw [Facts.toList, List.isEmpty_iff.mp hempty, List.map_nil]
    rw [hnone]
    exact .ok []
  · exact blocks_obeys.map

/-- Facts are compiled exactly if they are all valid. If they are not, the fault is about a field
of the first dimension whose fact is not valid, and is that of the first of its requirements that
is not met. When the keywords of an expression have been found, looking them up again for the
query does not fail. -/
theorem compile_decides (s : Scheme) {facts : Facts} (hbuilt : facts.Built) :
    ((∃ ts, s.compile facts = .ok ts) ↔
      ∀ d fact, facts.get? d = some fact → s.Valid fact) ∧
    (∀ fault, s.compile facts = .error fault ↔
      ∃ before d behind fact, Dimension.all = before ++ d :: behind ∧
        facts.get? d = some fact ∧ fact.dimension = d ∧
        FirstUnmet (s.requirements fact) fault ∧ fault.field ∈ d.fields ∧
        ∀ e ∈ before, ∀ other, facts.get? e = some other → s.Valid other) ∧
    ∀ d e, s.firstUnknown? d e = none → ∃ c, s.clause d e = .ok c := by
  have hvalid : ∀ d, (∀ r ∈ (facts.get? d).elim [] s.requirements, r.met) ↔
      ∀ fact, facts.get? d = some fact → s.Valid fact := by
    intro d
    cases facts.get? d with
    | none => simp
    | some fact => simp [valid_iff]
  refine ⟨?_, fun fault => ?_, fun d e hunknown => ?_⟩
  · rw [compile_obeys.ok_iff]
    simp only [List.mem_flatMap, forall_exists_index, and_imp]
    constructor
    · intro h d
      exact (hvalid d).mp fun r hr => h r d d.mem_all hr
    · intro h r d _ hr
      exact (hvalid d).mpr (h d) r hr
  · rw [compile_obeys fault, Requirement.firstUnmet_flatMap_iff]
    constructor
    · rintro ⟨before, d, behind, hsplit, hunmet, hbefore⟩
      cases hget : facts.get? d with
      | none =>
        rw [hget] at hunmet
        exact absurd hunmet Requirement.not_firstUnmet_nil
      | some fact =>
        rw [hget] at hunmet
        have hdimension := hbuilt.dimension_eq d fact hget
        exact ⟨before, d, behind, fact, hsplit, hget, hdimension, hunmet,
          hdimension ▸ field_mem_fields hunmet, fun e he => (hvalid e).mp (hbefore e he)⟩
    · rintro ⟨before, d, behind, fact, hsplit, hget, -, hunmet, -, hbefore⟩
      refine ⟨before, d, behind, hsplit, ?_, fun e he => (hvalid e).mpr (hbefore e he)⟩
      rw [hget]
      exact hunmet
  · refine clause_of_known e ?_
    simpa [firstUnknown?, Option.isSome_iff_ne_none] using hunknown

/-- The end of the window is no time of day, and that hides the keyword that is not known. -/
theorem compile_decides_masked :
    let s : Scheme := ⟨.named "urn:policy", ∅, .dayMonthYear⟩
    let facts := ((∅ : Facts).insert (.device (some (.keyword "kiosk")))).insert
      (.time ⟨some "08:00", some "24:00"⟩)
    facts.Built ∧ s.compile facts = .error ⟨"end", "expected dd/mm/yyyy or HH:MM"⟩ := by
  intro s facts
  have hbuilt : facts.Built := (Facts.Built.empty.insert _).insert _
  refine ⟨hbuilt, ((compile_decides s hbuilt).2.1 _).mpr
    ⟨[.user], .time, [.outdoor, .environment, .device], _, rfl, rfl, rfl, ?_, by decide, ?_⟩⟩
  · have hbegin : s.Gives (some "08:00") (.time ⟨8, 0⟩) :=
      ⟨_, rfl, Timestamp.read_eq_some_iff.mp (by decide)⟩
    refine .behind rfl (.behind rfl (.behind ⟨_, hbegin⟩ (.here ?_)))
    rintro ⟨t, text, ⟨⟩, hspelled⟩
    have hread := Timestamp.read_eq_some_iff.mpr hspelled
    cases hread
  · intro e he
    rw [List.mem_singleton.mp he]
    nofun

end Scheme

end ContextPolicy
