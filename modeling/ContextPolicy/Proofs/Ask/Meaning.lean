import ContextPolicy.Proofs.Ask.Clauses
import ContextPolicy.Proofs.Condition.Queries

/-! The meaning of the queries for keywords.

`Says` reads tokens by the rules for groups: a group holds when all that stands in it does,
alternatives when one of them does, a filter for what does not exist when its group does
not. The truth of triple patterns is given. The rules leave no choice (`Says.unique`), so a
text holds or fails in one way only.

Read so, the query for an expression says what the expression says (`says_tokensIn`, along
the operators), but for disjunctions without operands: nothing is written for them, and
nothing is what always holds. -/
namespace ContextPolicy

open Ask (Token Slot)

/-! ### Queries -/

namespace Ask

inductive Part where
  /-- A group with its braces. -/
  | group
  /-- What stands in a group, and its closing brace. -/
  | elements
  /-- One or more groups with a word between them. -/
  | alternatives
deriving DecidableEq, Repr

/-- The tokens begin with a part that holds or not, and the last ones follow it. -/
inductive Says (truth : Slot → Slot → Slot → Bool) :
    Part → List Token → Bool → List Token → Prop
  | group {ts rest : List Token} {a : Bool} (h : Says truth .elements ts a rest) :
    Says truth .group (.openBrace :: ts) a rest
  | close {rest : List Token} : Says truth .elements (.closeBrace :: rest) true rest
  | triple {s p o : Slot} {ts rest : List Token} {a : Bool} (h : Says truth .elements ts a rest) :
    Says truth .elements (.slot s :: .slot p :: .slot o :: .dot :: ts) (truth s p o && a) rest
  | notExists {ts us rest : List Token} {a b : Bool} (hgroup : Says truth .group ts a us)
    (h : Says truth .elements us b rest) :
    Says truth .elements (absence id ts) (!a && b) rest
  | union {ts us rest : List Token} {a b : Bool} (halternatives : Says truth .alternatives ts a us)
    (h : Says truth .elements us b rest) : Says truth .elements ts (a && b) rest
  | last {ts rest : List Token} {a : Bool} (h : Says truth .group ts a rest)
    (hrest : rest.head? ≠ some (.word "UNION")) : Says truth .alternatives ts a rest
  | more {ts us rest : List Token} {a b : Bool}
    (hgroup : Says truth .group ts a (.word "UNION" :: us))
    (h : Says truth .alternatives us b rest) : Says truth .alternatives ts (a || b) rest

/-- A text is a query, and holds or not. -/
def Holds (truth : Slot → Slot → Slot → Bool) (text : String) (a : Bool) : Prop :=
  ∃ ts, tokens text.toList = some (.word "ASK" :: .word "WHERE" :: ts) ∧ Says truth .group ts a []

variable {truth : Slot → Slot → Slot → Bool}

namespace Says
variable {ts us rest : List Token} {a b : Bool}

/-! ### One reading -/

theorem head?_of_group (h : Says truth .group ts a rest) : ts.head? = some .openBrace := by
  cases h with
  | group h => rfl

theorem head?_of_alternatives (h : Says truth .alternatives ts a rest) :
    ts.head? = some .openBrace := by
  cases h with
  | last h _ => exact h.head?_of_group
  | more h _ => exact h.head?_of_group

theorem head?_of_elements (h : Says truth .elements ts a rest) :
    ts.head? ≠ some (.word "UNION") := by
  cases h with
  | close => nofun
  | triple h => nofun
  | notExists hgroup h => simp [absence]
  | union halternatives h =>
    rw [halternatives.head?_of_alternatives]
    nofun

theorem unique {part : Part} (h : Says truth part ts a rest) {rest' : List Token}
    (h' : Says truth part ts b rest') : a = b ∧ rest = rest' := by
  induction h generalizing b rest' with
  | group h ih =>
    cases h' with
    | group h' => exact ih h'
  | close =>
    cases h' with
    | close => exact ⟨rfl, rfl⟩
    | union halternatives h' => cases halternatives.head?_of_alternatives
  | triple h ih =>
    cases h' with
    | triple h' =>
      obtain ⟨rfl, rfl⟩ := ih h'
      exact ⟨rfl, rfl⟩
    | union halternatives h' => cases halternatives.head?_of_alternatives
  | notExists hgroup h ihgroup ih =>
    cases h' with
    | notExists hgroup' h' =>
      obtain ⟨rfl, rfl⟩ := ihgroup hgroup'
      obtain ⟨rfl, rfl⟩ := ih h'
      exact ⟨rfl, rfl⟩
    | union halternatives h' => cases halternatives.head?_of_alternatives
  | union halternatives h ihalternatives ih =>
    cases h' with
    | union halternatives' h' =>
      obtain ⟨rfl, rfl⟩ := ihalternatives halternatives'
      obtain ⟨rfl, rfl⟩ := ih h'
      exact ⟨rfl, rfl⟩
    | close => cases halternatives.head?_of_alternatives
    | triple h' => cases halternatives.head?_of_alternatives
    | notExists hgroup' h' => cases halternatives.head?_of_alternatives
  | last h hrest ih =>
    cases h' with
    | last h' _ => exact ih h'
    | more hgroup' h' =>
      obtain ⟨-, rfl⟩ := ih hgroup'
      exact absurd rfl hrest
  | more hgroup h ihgroup ih =>
    cases h' with
    | last h' hrest' =>
      obtain ⟨-, rfl⟩ := ihgroup h'
      exact absurd rfl hrest'
    | more hgroup' h' =>
      obtain ⟨rfl, heq⟩ := ihgroup hgroup'
      obtain rfl := (List.cons.inj heq).2
      obtain ⟨rfl, rfl⟩ := ih h'
      exact ⟨rfl, rfl⟩

/-! ### Parts of groups -/

end Says

/-- In front of the rest of a group these tokens add a condition. -/
def Adds (truth : Slot → Slot → Slot → Bool) (ts : List Token) (a : Bool) : Prop :=
  ∀ us b rest, Says truth .elements us b rest → Says truth .elements (ts ++ us) (a && b) rest

/-- The tokens are a group. -/
def IsGroup (truth : Slot → Slot → Slot → Bool) (ts : List Token) (a : Bool) : Prop :=
  ∀ rest, Says truth .group (ts ++ rest) a rest

variable {ts us : List Token} {a b : Bool}

theorem Adds.enclosed (h : Adds truth ts a) : IsGroup truth (enclosed id true ts) a := by
  intro rest
  have hinside := h (.closeBrace :: rest) true rest .close
  rw [Bool.and_true] at hinside
  have hwhole := Says.group hinside
  simpa [Ask.enclosed] using hwhole

theorem IsGroup.adds (h : IsGroup truth ts a) : Adds truth ts a :=
  fun us _ _ hus => .union (.last (h us) hus.head?_of_elements) hus

theorem IsGroup.absence (h : IsGroup truth ts a) : Adds truth (absence id ts) (!a) :=
  fun us _ _ hus => .notExists (h us) hus

theorem adds_nil : Adds truth [] true := by
  intro us b rest h
  rwa [Bool.true_and]

theorem Adds.append (h : Adds truth ts a) (h' : Adds truth us b) :
    Adds truth (ts ++ us) (a && b) := by
  intro vs c rest hvs
  rw [List.append_assoc, Bool.and_assoc]
  exact h _ _ _ (h' _ _ _ hvs)

theorem adds_triple (s p o : Slot) :
    Adds truth [.slot s, .slot p, .slot o, .dot] (truth s p o) :=
  fun _ _ _ h => .triple h

end Ask

/-! ### Expressions -/

namespace Expression

mutual

/-- The truth of an expression, given that of its keywords and that of a disjunction without
operands. -/
def holds (vacuous : Bool) (h : String → Bool) : Expression → Bool
  | keyword word => h word
  | not operand => !holds vacuous h operand
  | all operands => (truths vacuous h operands).all id
  | any operands => (operands.isEmpty && vacuous) || (truths vacuous h operands).any id

def truths (vacuous : Bool) (h : String → Bool) : List Expression → List Bool
  | [] => []
  | e :: rest => holds vacuous h e :: truths vacuous h rest

end

mutual

/-- Whether each disjunction has an operand. -/
def NoVacuous : Expression → Prop
  | keyword _ => True
  | not operand => NoVacuous operand
  | all operands => NoVacuousEach operands
  | any operands => operands ≠ [] ∧ NoVacuousEach operands

def NoVacuousEach : List Expression → Prop
  | [] => True
  | e :: rest => NoVacuous e ∧ NoVacuousEach rest

end

mutual

theorem NoVacuous.holds_eq {e : Expression} (he : e.NoVacuous) (h : String → Bool) :
    e.holds true h = e.holds false h := by
  match e, he with
  | keyword word, _ => rfl
  | not operand, he => exact congrArg Bool.not (NoVacuous.holds_eq (e := operand) he h)
  | all operands, he =>
    have heach : NoVacuousEach operands := he
    rw [holds, holds, heach.truths_eq]
  | any operands, ⟨hne, heach⟩ =>
    have hempty : operands.isEmpty = false := List.isEmpty_eq_false_iff.mpr hne
    rw [holds, holds, hempty, heach.truths_eq, Bool.false_and, Bool.false_and]

theorem NoVacuousEach.truths_eq {es : List Expression} (hes : NoVacuousEach es)
    (h : String → Bool) : truths true h es = truths false h es := by
  match es, hes with
  | [], _ => rfl
  | e :: rest, ⟨he, hrest⟩ =>
    rw [truths, truths, he.holds_eq h, NoVacuousEach.truths_eq hrest h]

end

end Expression

namespace Ask
variable {truth : Slot → Slot → Slot → Bool} {pattern : String → List Token} {h : String → Bool}

mutual

/-- The tokens of an expression say it, as a part of a group and as a group. -/
theorem says_tokensIn {e : Expression}
    (hpattern : ∀ word ∈ e.keywords, Adds truth (pattern word) (h word)) :
    Adds truth (tokensIn pattern false e) (e.holds true h) ∧
      IsGroup truth (tokensIn pattern true e) (e.holds true h) := by
  match e, hpattern with
  | .keyword word, hpattern =>
    have hword : Adds truth (pattern word) (h word) := hpattern word (List.mem_singleton.mpr rfl)
    exact ⟨hword, hword.enclosed⟩
  | .not operand, hpattern =>
    have hoperand := (says_tokensIn (e := operand) hpattern).2.absence
    exact ⟨hoperand, hoperand.enclosed⟩
  | .all operands, hpattern =>
    have hoperands : IsGroup truth _ ((Expression.truths true h operands).all id) :=
      (adds_flatten hpattern).enclosed
    exact ⟨hoperands.adds, hoperands⟩
  | .any [], _ => exact ⟨adds_nil, adds_nil.enclosed⟩
  | .any (e :: rest), hpattern =>
    have hoperands : Adds truth ([.word "UNION"].intercalate (tokensOfEach pattern true (e :: rest)))
        ((Expression.truths true h (e :: rest)).any id) := fun us _ _ hus =>
      .union (says_intercalate (List.cons_ne_nil e rest) hpattern us hus.head?_of_elements) hus
    exact ⟨hoperands, hoperands.enclosed⟩

theorem adds_flatten {es : List Expression}
    (hpattern : ∀ word ∈ Expression.keywordsOfAll es, Adds truth (pattern word) (h word)) :
    Adds truth (tokensOfEach pattern false es).flatten
      ((Expression.truths true h es).all id) := by
  match es, hpattern with
  | [], _ => exact adds_nil
  | e :: rest, hpattern =>
    have hfirst := (says_tokensIn fun word hw => hpattern word (List.mem_append_left _ hw)).1
    exact hfirst.append (adds_flatten fun word hw => hpattern word (List.mem_append_right _ hw))

theorem says_intercalate {es : List Expression} (hne : es ≠ [])
    (hpattern : ∀ word ∈ Expression.keywordsOfAll es, Adds truth (pattern word) (h word))
    (rest : List Token) (hrest : rest.head? ≠ some (.word "UNION")) :
    Says truth .alternatives ([.word "UNION"].intercalate (tokensOfEach pattern true es) ++ rest)
      ((Expression.truths true h es).any id) rest := by
  match es, hne, hpattern with
  | [e], _, hpattern =>
    have hgroup := (says_tokensIn fun word hw => hpattern word (List.mem_append_left _ hw)).2
    have hlast := Says.last (hgroup rest) hrest
    simpa [tokensOfEach, Expression.truths] using hlast
  | e :: f :: es, _, hpattern =>
    have hgroup := (says_tokensIn fun word hw => hpattern word (List.mem_append_left _ hw)).2
    have hmore := says_intercalate (List.cons_ne_nil f es)
      (fun word hw => hpattern word (List.mem_append_right _ hw)) rest hrest
    have hwhole := Says.more (hgroup _) hmore
    simpa [tokensOfEach, Expression.truths, List.intercalate_cons_cons] using hwhole

end

end Ask

/-! ### Conditions -/

namespace Scheme
variable {s : Scheme} {d : Dimension}

/-- The truth of the pattern that a keyword stands for. -/
def keywordTruth (s : Scheme) (d : Dimension) (truth : Slot → Slot → Slot → Bool)
    (word : String) : Bool :=
  (s.vocabulary.lookup d word).any fun b =>
    truth (.var d.name) (.ofText b.predicate) (.term b.value)

theorem adds_pattern {truth : Slot → Slot → Slot → Bool} {word : String}
    (h : (s.vocabulary.lookup d word).isSome) :
    Ask.Adds truth (s.pattern d word) (s.keywordTruth d truth word) := by
  obtain ⟨b, hb⟩ := Option.isSome_iff_exists.mp h
  rw [pattern, keywordTruth, hb]
  exact Ask.adds_triple _ _ _

/-- What the text of a query says. -/
theorem holds_query {e : Expression} {c : Ask.Clause} (hc : s.clause d e = .ok c)
    (hspells : ∀ word ∈ e.keywords, s.Spells d word) (truth : Slot → Slot → Slot → Bool)
    (a : Bool) : Ask.Holds truth (Ask.toText ⟨[c]⟩) a ↔
      a = e.holds true (s.keywordTruth d truth) := by
  have htokens := tokens_query hc hspells
  have hsays : Ask.Says truth .group (Ask.enclosed id true (Ask.tokensIn (s.pattern d) false e))
      (e.holds true (s.keywordTruth d truth)) [] := by
    have hadds : Ask.Adds truth (Ask.tokensIn (s.pattern d) false e)
        (e.holds true (s.keywordTruth d truth)) :=
      (Ask.says_tokensIn fun word hw => adds_pattern (lookup_of_clause hc word hw)).1
    have hgroup := hadds.enclosed []
    rwa [List.append_nil] at hgroup
  constructor
  · rintro ⟨ts, hts, h⟩
    rw [htokens] at hts
    cases hts
    exact (h.unique hsays).1
  · rintro rfl
    exact ⟨_, htokens, hsays⟩

/-- The query for an expression holds exactly when the expression is true, whatever patterns
are true, if a disjunction without operands counts as true. So it says what the expression
says when each disjunction has operands. -/
theorem query_means {facts : Facts} (hbuilt : facts.Built) {ts : List Triple}
    (hts : s.compile facts = .ok ts) {e : Expression}
    (he : facts.expression? d = some (some e)) (hspells : ∀ word ∈ e.keywords, s.Spells d word) :
    ∃ query, (∀ q, s.Asks ts d q ↔ q = .typed query Names.Context.askQuery) ∧
      ∀ truth a, (Ask.Holds truth query a ↔ a = e.holds true (s.keywordTruth d truth)) ∧
        (e.NoVacuous → (Ask.Holds truth query a ↔ a = e.holds false (s.keywordTruth d truth))) := by
  obtain ⟨c, hc, hasks⟩ := asks_keywords hbuilt hts he
  refine ⟨_, hasks, fun truth a => ⟨holds_query hc hspells truth a, fun hvacuous => ?_⟩⟩
  rw [← hvacuous.holds_eq]
  exact holds_query hc hspells truth a

/-- A negated disjunction over keywords in any case, one of them behind operators that have
no or one operand. -/
theorem query_means_nested :
    let keywords : Keywords := ((∅ : Keywords).insert "staff" ⟨"urn:org#role", .plain "staff"⟩).insert
      "on leave" ⟨"urn:org#state", .plain "on \"leave\""⟩
    let s : Scheme := ⟨.named "urn:policy#condition", ⟨keywords, ∅, ∅⟩, .dayMonthYear⟩
    let e : Expression :=
      .not (.any [.keyword "Staff", .all [.not (.keyword "On Leave")], .all []])
    let facts : Facts := (∅ : Facts).insert (.user (some e))
    ∃ (ts : List Triple) (query : String), s.compile facts = .ok ts ∧
      (∀ q, s.Asks ts .user q ↔ q = .typed query Names.Context.askQuery) ∧
      ∀ truth a, Ask.Holds truth query a ↔ a = e.holds false (s.keywordTruth .user truth) := by
  intro keywords s e facts
  have hok : (s.compile facts).toOption.isSome := by decide +kernel
  obtain ⟨ts, hts⟩ := Option.isSome_iff_exists.mp hok
  have hstaff : s.vocabulary.lookup .user "Staff" = some ⟨"urn:org#role", .plain "staff"⟩ := by
    decide +kernel
  have hleave : s.vocabulary.lookup .user "On Leave" =
      some ⟨"urn:org#state", .plain "on \"leave\""⟩ := by
    decide +kernel
  have hspells : ∀ word ∈ e.keywords, s.Spells .user word := by
    intro word hw b hb
    obtain rfl | rfl : word = "Staff" ∨ word = "On Leave" := by
      simpa [e, Expression.keywords, Expression.keywordsOfAll] using hw
    · cases hstaff.symm.trans hb
      exact ⟨⟨by decide, rfl⟩, trivial⟩
    · cases hleave.symm.trans hb
      exact ⟨⟨by decide, rfl⟩, trivial⟩
  have hvacuous : e.NoVacuous :=
    ⟨List.cons_ne_nil _ _, trivial, ⟨trivial, trivial⟩, trivial, trivial⟩
  obtain ⟨query, hasks, hmeans⟩ := query_means (Facts.Built.empty.insert _) (ok_of_toOption hts)
    (d := .user) (e := e) rfl hspells
  exact ⟨ts, query, ok_of_toOption hts, hasks, fun truth a => (hmeans truth a).2 hvacuous⟩

/-- A disjunction without operands is false, but its query always holds. -/
theorem query_means_vacuous :
    let s : Scheme := ⟨.named "urn:policy#condition", ∅, .dayMonthYear⟩
    let e : Expression := .any []
    let facts : Facts := (∅ : Facts).insert (.user (some e))
    ∃ (ts : List Triple) (query : String), s.compile facts = .ok ts ∧
      s.Asks ts .user (.typed query Names.Context.askQuery) ∧
      ∀ truth h, e.holds false h = false ∧ Ask.Holds truth query true ∧
        ¬Ask.Holds truth query false := by
  intro s e facts
  have hok : (s.compile facts).toOption.isSome := by decide +kernel
  obtain ⟨ts, hts⟩ := Option.isSome_iff_exists.mp hok
  obtain ⟨c, hc, hasks⟩ := asks_keywords (Facts.Built.empty.insert _) (ok_of_toOption hts)
    (d := .user) (e := e) rfl
  have hholds := holds_query hc fun word hw => absurd hw List.not_mem_nil
  refine ⟨ts, _, ok_of_toOption hts, (hasks _).mpr rfl, fun truth h => ⟨rfl, ?_, ?_⟩⟩
  · exact (hholds truth true).mpr rfl
  · exact fun hfalse => Bool.false_ne_true ((hholds truth false).mp hfalse)

end Scheme

end ContextPolicy
