import ContextPolicy.Proofs.Ask.Clauses
import ContextPolicy.Proofs.Condition.Queries
import ContextPolicy.Proofs.Settings.Accepted

/-! The structure of the queries for keywords.

A query is an outline, which the shape of its expression alone determines, with the pattern
of each keyword in a gap of its own. `Fills` relates the three for parts of queries, so that
the parts can be put together; `fills_outline` says it of the query. What accepted settings
bind keywords to has tokens of its own and cannot break out of them, so it stays within the
gaps (`query_outline`). The exception is a predicate that begins with a dollar sign: it passes for an IRI
when the settings are read, but is taken for a variable when the query is written. -/
namespace ContextPolicy

open Ask (Token)

/-! ### Outlines -/

/-- What is left of an expression without its keywords. -/
inductive Shape where
  | keyword
  | not (operand : Shape)
  | all (operands : List Shape)
  | any (operands : List Shape)
deriving Repr

mutual

def Expression.shape : Expression → Shape
  | .keyword _ => .keyword
  | .not operand => .not operand.shape
  | .all operands => .all (Expression.shapes operands)
  | .any operands => .any (Expression.shapes operands)

def Expression.shapes : List Expression → List Shape
  | [] => []
  | e :: rest => e.shape :: Expression.shapes rest

end

namespace Shape

mutual

/-- The tokens around the keywords, with a gap for each keyword. -/
def outlineIn (needed : Bool) : Shape → List (Option Token)
  | keyword => Ask.enclosed some needed [none]
  | not operand => Ask.enclosed some needed (Ask.absence some (outlineIn true operand))
  | all operands => Ask.enclosed some true (outlinesIn false operands).flatten
  | any operands =>
    Ask.enclosed some needed ([some (.word "UNION")].intercalate (outlinesIn true operands))

def outlinesIn (needed : Bool) : List Shape → List (List (Option Token))
  | [] => []
  | shape :: rest => outlineIn needed shape :: outlinesIn needed rest

end

/-- The query of a shape. -/
def outline (shape : Shape) : List (Option Token) :=
  Ask.framed some (outlineIn false shape)

end Shape

namespace Ask

/-- An outline with its gaps filled in order. -/
def fill : List (Option Token) → List (List Token) → List Token
  | [], _ => []
  | some t :: rest, patterns => t :: fill rest patterns
  | none :: rest, [] => fill rest []
  | none :: rest, pattern :: patterns => pattern ++ fill rest patterns

/-- The tokens that stand outside the gaps. -/
def signs : List Token :=
  .openBrace :: .closeBrace :: reserved.map .word

theorem mem_fill {outline : List (Option Token)} {patterns : List (List Token)} {t : Token}
    (h : t ∈ fill outline patterns) : some t ∈ outline ∨ ∃ p ∈ patterns, t ∈ p := by
  fun_induction fill outline patterns with
  | case1 => cases h
  | case2 u rest patterns ih =>
    obtain rfl | h := List.mem_cons.mp h
    · exact .inl List.mem_cons_self
    · exact (ih h).imp_left (List.mem_cons_of_mem _)
  | case3 rest ih => exact (ih h).imp_left (List.mem_cons_of_mem _)
  | case4 rest p patterns ih =>
    rcases List.mem_append.mp h with h | h
    · exact .inr ⟨p, List.mem_cons_self, h⟩
    · rcases ih h with h | ⟨q, hq, h⟩
      · exact .inl (List.mem_cons_of_mem _ h)
      · exact .inr ⟨q, List.mem_cons_of_mem _ hq, h⟩

/-- An outline of signs that has a gap for each pattern gives these tokens. -/
structure Fills (outline : List (Option Token)) (patterns : List (List Token))
    (ts : List Token) : Prop where
  fill_append : ∀ rest more, fill (outline ++ rest) (patterns ++ more) = ts ++ fill rest more
  gaps : outline.count none = patterns.length
  signs : ∀ t, some t ∈ outline → t ∈ signs

namespace Fills
variable {outline outline' : List (Option Token)} {patterns patterns' : List (List Token)}
  {ts us : List Token}

theorem nil : Fills [] [] [] :=
  ⟨fun _ _ => rfl, rfl, fun _ h => absurd h List.not_mem_nil⟩

theorem gap (pattern : List Token) : Fills [none] [pattern] pattern :=
  ⟨fun _ _ => rfl, rfl, fun _ h => absurd (List.mem_singleton.mp h) nofun⟩

theorem append (h : Fills outline patterns ts) (h' : Fills outline' patterns' us) :
    Fills (outline ++ outline') (patterns ++ patterns') (ts ++ us) where
  fill_append rest more := by
    rw [List.append_assoc, List.append_assoc, h.fill_append, h'.fill_append, List.append_assoc]
  gaps := by
    rw [List.count_append, h.gaps, h'.gaps, List.length_append]
  signs t ht := (List.mem_append.mp ht).elim (h.signs t) (h'.signs t)

theorem sign {t : Token} (ht : t ∈ Ask.signs) (h : Fills outline patterns ts) :
    Fills (some t :: outline) patterns (t :: ts) where
  fill_append rest more := congrArg (t :: ·) (h.fill_append rest more)
  gaps := by
    rw [List.count_cons_of_ne (by simp), h.gaps]
  signs u hu := by
    rcases List.mem_cons.mp hu with hu | hu
    · cases hu
      exact ht
    · exact h.signs u hu

theorem enclosed (needed : Bool) (h : Fills outline patterns ts) :
    Fills (Ask.enclosed some needed outline) patterns (Ask.enclosed id needed ts) := by
  cases needed with
  | false => exact h
  | true =>
    have hclose : Fills [some .closeBrace] [] [.closeBrace] := nil.sign (by decide)
    have hwhole := (h.append hclose).sign (t := .openBrace) (by decide)
    rwa [List.append_nil] at hwhole

theorem absence (h : Fills outline patterns ts) :
    Fills (Ask.absence some outline) patterns (Ask.absence id ts) :=
  ((h.sign (by decide)).sign (by decide)).sign (by decide)

theorem framed (h : Fills outline patterns ts) :
    Fills (Ask.framed some outline) patterns (Ask.framed id ts) :=
  ((h.enclosed true).sign (by decide)).sign (by decide)

/-- The tokens that an outline and its patterns give. -/
theorem fill_eq (h : Fills outline patterns ts) : fill outline patterns = ts := by
  have hwhole := h.fill_append [] []
  rwa [List.append_nil, List.append_nil, fill, List.append_nil] at hwhole

end Fills

mutual

/-- The tokens of an expression are the outline of its shape, filled with its keywords. -/
theorem fills_outlineIn (pattern : String → List Token) (needed : Bool) (e : Expression) :
    Fills (e.shape.outlineIn needed) (e.keywords.map pattern) (tokensIn pattern needed e) := by
  match e with
  | .keyword word => exact (Fills.gap (pattern word)).enclosed needed
  | .not operand => exact (fills_outlineIn pattern true operand).absence.enclosed needed
  | .all operands => exact (fills_flatten pattern operands).enclosed true
  | .any operands => exact (fills_intercalate pattern operands).enclosed needed

theorem fills_flatten (pattern : String → List Token) (es : List Expression) :
    Fills (Shape.outlinesIn false (Expression.shapes es)).flatten
      ((Expression.keywordsOfAll es).map pattern) (tokensOfEach pattern false es).flatten := by
  match es with
  | [] => exact .nil
  | e :: rest =>
    have hwhole := (fills_outlineIn pattern false e).append (fills_flatten pattern rest)
    rwa [← List.map_append] at hwhole

theorem fills_intercalate (pattern : String → List Token) (es : List Expression) :
    Fills ([some (.word "UNION")].intercalate
        (Shape.outlinesIn true (Expression.shapes es)))
      ((Expression.keywordsOfAll es).map pattern)
      ([.word "UNION"].intercalate (tokensOfEach pattern true es)) := by
  match es with
  | [] => exact .nil
  | [e] =>
    have hwhole := (fills_outlineIn pattern true e).append .nil
    simpa [Expression.keywordsOfAll, Expression.shapes, Shape.outlinesIn, tokensOfEach] using hwhole
  | e :: f :: rest =>
    have hmore := (fills_intercalate pattern (f :: rest)).sign (t := .word "UNION") (by decide)
    have hwhole := (fills_outlineIn pattern true e).append hmore
    rw [← List.map_append] at hwhole
    simpa [Expression.keywordsOfAll, Expression.shapes, Shape.outlinesIn, tokensOfEach,
      List.intercalate_cons_cons] using hwhole

end

theorem fills_outline (pattern : String → List Token) (e : Expression) :
    Fills e.shape.outline (e.keywords.map pattern) (queryTokens pattern e) :=
  (fills_outlineIn pattern false e).framed

end Ask

/-! ### Settings -/

/-- A predicate that no dollar sign marks as a variable is written as the IRI it is. -/
theorem Ask.Slot.ofText_of_head? {text : String} (h : text.toList.head? ≠ some '$') :
    ofText text = .term (.named text) := by
  unfold ofText
  split
  · next name hname =>
    rw [hname] at h
    exact absurd rfl h
  · rfl

theorem exists_map_some {α β : Type} {f : α → Option β} {xs : List α}
    (h : ∀ x ∈ xs, (f x).isSome) : ∃ ys : List β, xs.map f = ys.map some := by
  induction xs with
  | nil => exact ⟨[], rfl⟩
  | cons x rest ih =>
    obtain ⟨y, hy⟩ := Option.isSome_iff_exists.mp (h x List.mem_cons_self)
    obtain ⟨ys, hys⟩ := ih fun z hz => h z (List.mem_cons_of_mem x hz)
    exact ⟨y :: ys, by rw [List.map_cons, hy, hys, List.map_cons]⟩

namespace Settings

/-- The tokens of a keyword: a variable for the dimension, the predicate as an IRI, the value
and a dot. -/
def keywordTokens (d : Dimension) (b : Binding) : List Token :=
  [.slot (.var d.name), .slot (.term (.named b.predicate)), .slot (.term b.value), .dot]

theorem Accepted.spells {s : Settings} (h : s.Accepted) {d : Dimension} {word : String}
    (hdollar : ∀ b, s.vocabulary.lookup d word = some b → b.predicate.toList.head? ≠ some '$') :
    s.scheme.Spells d word := by
  intro b hb
  obtain ⟨hpredicate, hvalue⟩ := h.vocabulary d word b hb
  rw [Ask.Slot.ofText_of_head? (hdollar b hb)]
  exact ⟨⟨hpredicate, rfl⟩, hvalue⟩

theorem patterns_eq {s : Settings} {d : Dimension} {words : List String} {bs : List Binding}
    (hbs : words.map (s.vocabulary.lookup d) = bs.map some)
    (hdollar : ∀ word ∈ words, ∀ b, s.vocabulary.lookup d word = some b →
      b.predicate.toList.head? ≠ some '$') :
    words.map (s.scheme.pattern d) = bs.map (keywordTokens d) := by
  let given (o : Option Binding) : List Token := (o.map (keywordTokens d)).getD []
  have hpattern : ∀ word ∈ words, s.scheme.pattern d word =
      (given ∘ s.vocabulary.lookup d) word := by
    intro word hw
    show ((s.vocabulary.lookup d word).map (Binding.pattern d)).getD [] =
      ((s.vocabulary.lookup d word).map (keywordTokens d)).getD []
    cases hb : s.vocabulary.lookup d word with
    | none => rfl
    | some b =>
      show Binding.pattern d b = keywordTokens d b
      rw [Binding.pattern, Ask.Slot.ofText_of_head? (hdollar word hw b hb), keywordTokens]
  calc words.map (s.scheme.pattern d)
    _ = words.map (given ∘ s.vocabulary.lookup d) := List.map_congr_left hpattern
    _ = (bs.map some).map given := by rw [← List.map_map, hbs]
    _ = bs.map (keywordTokens d) := List.map_map

/-- The query for an expression over the vocabulary of accepted settings has the tokens of
each keyword in the order of the keywords, and around them signs that depend on the shape of
the expression only. Its only variable is that of the dimension. -/
theorem query_outline {text : String} {s : Settings} (h : ofJson text = .ok s) {facts : Facts}
    (hbuilt : facts.Built) {ts : List Triple} (hts : s.scheme.compile facts = .ok ts)
    {d : Dimension} {e : Expression} (he : facts.expression? d = some (some e))
    (hdollar : ∀ word ∈ e.keywords, ∀ b, s.vocabulary.lookup d word = some b →
      b.predicate.toList.head? ≠ some '$') :
    ∃ (query : String) (bs : List Binding),
      (∀ q, s.scheme.Asks ts d q ↔ q = .typed query Names.Context.askQuery) ∧
      e.keywords.map (s.vocabulary.lookup d) = bs.map some ∧
      Ask.tokens query.toList = some (Ask.fill e.shape.outline (bs.map (keywordTokens d))) ∧
      e.shape.outline.count none = bs.length ∧
      (∀ t, some t ∈ e.shape.outline → t ∈ Ask.signs) ∧
      ∀ name, .slot (.var name) ∈ Ask.fill e.shape.outline (bs.map (keywordTokens d)) →
        name = d.name := by
  have haccepted := accepted_of_ofJson h
  obtain ⟨c, hc, hasks⟩ := Scheme.asks_keywords hbuilt hts he
  obtain ⟨bs, hbs⟩ := exists_map_some (Scheme.lookup_of_clause hc)
  have hpatterns := patterns_eq hbs hdollar
  have hfills := Ask.fills_outline (s.scheme.pattern d) e
  rw [hpatterns] at hfills
  have htokens := Scheme.tokens_query hc fun word hw => haccepted.spells (hdollar word hw)
  rw [← hfills.fill_eq] at htokens
  refine ⟨_, bs, hasks, hbs, htokens, ?_, hfills.signs, fun name hname => ?_⟩
  · rw [hfills.gaps, List.length_map]
  · rcases Ask.mem_fill hname with hsign | ⟨p, hp, hname⟩
    · have hmem := hfills.signs _ hsign
      simp [Ask.signs, Ask.reserved] at hmem
    · obtain ⟨b, -, rfl⟩ := List.mem_map.mp hp
      simpa [keywordTokens] using hname

/-- A value that would close its quotes, its pattern and the group, and comment out the rest. -/
theorem query_outline_quotes :
    let text := "\x7b\"vocabulary\": \x7b\"user\": \x7b" ++
      "\"k\": \x7b\"predicate\": \"urn:p\", \"literal\": \"a\\\" . \x7d #\"\x7d, " ++
      "\"l\": \x7b\"predicate\": \"ac:q\", \"literal\": \"b\\n\", \"lang\": \"en-GB\"\x7d\x7d\x7d\x7d"
    let e : Expression := .any [.not (.keyword "K"), .all [.keyword "l", .any []]]
    let facts : Facts := (∅ : Facts).insert (.user (some e))
    ∃ (s : Settings) (ts : List Triple) (query : String) (bs : List Binding),
      ofJson text = .ok s ∧ s.scheme.compile facts = .ok ts ∧
      (∀ q, s.scheme.Asks ts .user q ↔ q = .typed query Names.Context.askQuery) ∧
      e.keywords.map (s.vocabulary.lookup .user) = bs.map some ∧
      Ask.tokens query.toList =
        some (Ask.fill e.shape.outline (bs.map (keywordTokens .user))) := by
  intro text e facts
  let keywords : Keywords :=
    ((∅ : Keywords).insert "k" ⟨"urn:p", .plain "a\" . \x7d #"⟩).insert "l"
      ⟨"urn:policy:context#q", .tagged "b\n" "en-GB"⟩
  let s : Settings := { Settings.default with vocabulary := ⟨keywords, ∅, ∅⟩ }
  have hs : (ofJson text).toOption = some s := by decide +kernel
  have hok : (s.scheme.compile facts).toOption.isSome := by decide +kernel
  have hdollar : ∀ word ∈ e.keywords, (s.vocabulary.lookup .user word).all
      (fun b => b.predicate.toList.head? != some '$') := by
    decide +kernel
  obtain ⟨ts, hts⟩ := Option.isSome_iff_exists.mp hok
  obtain ⟨query, bs, hasks, hbs, htokens, -⟩ := query_outline (ok_of_toOption hs)
    (Facts.Built.empty.insert _) (ok_of_toOption hts) (d := .user) (e := e) rfl
    fun word hw b hb => by simpa [hb] using hdollar word hw
  exact ⟨s, ts, query, bs, ok_of_toOption hs, ok_of_toOption hts, hasks, hbs, htokens⟩

/-- Settings may bind a keyword to a predicate behind a dollar sign, as an IRI like any other.
The query for the keyword then has a second variable. -/
theorem query_outline_dollar :
    let text := "\x7b\"vocabulary\": \x7b\"user\": \x7b" ++
      "\"staff\": \x7b\"predicate\": \"$role\", \"literal\": \"staff\"\x7d\x7d\x7d\x7d"
    let facts : Facts := (∅ : Facts).insert (.user (some (.keyword "staff")))
    ∃ (s : Settings) (ts : List Triple) (query : String) (tokens : List Token),
      ofJson text = .ok s ∧
      s.vocabulary.lookup .user "staff" = some ⟨"$role", .plain "staff"⟩ ∧
      s.scheme.compile facts = .ok ts ∧
      s.scheme.Asks ts .user (.typed query Names.Context.askQuery) ∧
      Ask.tokens query.toList = some tokens ∧
      .slot (.term (.named "$role")) ∉ tokens ∧ .slot (.var "role") ∈ tokens := by
  intro text facts
  let keywords : Keywords := (∅ : Keywords).insert "staff" ⟨"$role", .plain "staff"⟩
  let s : Settings := { Settings.default with vocabulary := ⟨keywords, ∅, ∅⟩ }
  have hs : (ofJson text).toOption = some s := by decide +kernel
  have hlookup : s.vocabulary.lookup .user "staff" = some ⟨"$role", .plain "staff"⟩ := by
    decide +kernel
  have hok : (s.scheme.compile facts).toOption.isSome := by decide +kernel
  obtain ⟨ts, hts⟩ := Option.isSome_iff_exists.mp hok
  obtain ⟨c, hc, hasks⟩ := Scheme.asks_keywords (Facts.Built.empty.insert _)
    (ok_of_toOption hts) (d := .user) (e := .keyword "staff") rfl
  have hspells : ∀ word ∈ (Expression.keyword "staff").keywords,
      s.scheme.Spells .user word := by
    intro word hw b hb
    rw [List.mem_singleton.mp hw] at hb
    cases hlookup.symm.trans hb
    exact ⟨(by decide : Ask.IsVariable "role".toList), trivial⟩
  have hpattern : s.scheme.pattern .user "staff" =
      [.slot (.var "user"), .slot (.var "role"), .slot (.term (.plain "staff")), .dot] := by
    show ((s.vocabulary.lookup .user "staff").map _).getD [] = _
    rw [hlookup]
    rfl
  have htokens := Scheme.tokens_query hc hspells
  simp only [Ask.queryTokens, Ask.tokensIn, hpattern] at htokens
  exact ⟨s, ts, _, _, ok_of_toOption hs, hlookup, ok_of_toOption hts, (hasks _).mpr rfl, htokens,
    by decide, by decide⟩

end Settings

end ContextPolicy
