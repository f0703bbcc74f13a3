import ContextPolicy.Proofs.Ask.Lexing
import ContextPolicy.Proofs.Condition.Blocks

/-! The queries for keywords, token by token.

`Ask.tokensIn` gives the tokens of an expression in a query, those of its keywords being
given: braces and words around them, as the operators ask for. The written clause of an
expression has these tokens (`lexes_clause`), as long as there are tokens for what its
keywords are bound to (`Spells`), and so has the text of the query (`tokens_query`). -/
namespace ContextPolicy

open Ask (Token Lexes)

/-! ### Expressions as tokens -/

namespace Ask

/-- The words of the queries. -/
def reserved : List String :=
  ["ASK", "WHERE", "UNION", "FILTER", "NOT", "EXISTS"]

/-- Braces, where they are needed, among the tokens or whatever stands for these. -/
def enclosed {α : Type} (sign : Token → α) (needed : Bool) (ts : List α) : List α :=
  if needed then sign .openBrace :: ts ++ [sign .closeBrace] else ts

/-- Tokens under a filter for what does not exist. -/
def absence {α : Type} (sign : Token → α) (ts : List α) : List α :=
  sign (.word "FILTER") :: sign (.word "NOT") :: sign (.word "EXISTS") :: ts

/-- The tokens of a query around those of its clauses. -/
def framed {α : Type} (sign : Token → α) (ts : List α) : List α :=
  sign (.word "ASK") :: sign (.word "WHERE") :: enclosed sign true ts

end Ask

/-- The tokens that a keyword stands for in the queries of a dimension. -/
def Binding.pattern (d : Dimension) (b : Binding) : List Token :=
  [.slot (.var d.name), .slot (.ofText b.predicate), .slot (.term b.value), .dot]

def Scheme.pattern (s : Scheme) (d : Dimension) (word : String) : List Token :=
  ((s.vocabulary.lookup d word).map (Binding.pattern d)).getD []

namespace Ask

mutual

/-- The tokens of an expression in a query, where braces are needed or not. -/
def tokensIn (pattern : String → List Token) (needed : Bool) : Expression → List Token
  | .keyword word => enclosed id needed (pattern word)
  | .not operand => enclosed id needed (absence id (tokensIn pattern true operand))
  | .all operands => enclosed id true (tokensOfEach pattern false operands).flatten
  | .any operands =>
    enclosed id needed ([.word "UNION"].intercalate (tokensOfEach pattern true operands))

def tokensOfEach (pattern : String → List Token) (needed : Bool) :
    List Expression → List (List Token)
  | [] => []
  | e :: rest => tokensIn pattern needed e :: tokensOfEach pattern needed rest

end

/-- The tokens of the query for an expression. -/
def queryTokens (pattern : String → List Token) (e : Expression) : List Token :=
  framed id (tokensIn pattern false e)

end Ask

/-! ### Clauses have these tokens -/

namespace Ask.Lexes
variable {cs : List Char} {ts : List Token}

theorem reserved {letters : String} (h : letters ∈ reserved) :
    Lexes letters.toList [.word letters] := by
  have hall : ∀ w ∈ Ask.reserved, w ≠ "" ∧ w.toList.all Char.isAlpha = true := by
    decide
  obtain ⟨hne, halpha⟩ := hall letters h
  exact word hne (List.all_eq_true.mp halpha)

theorem braced (needed : Bool) (h : Lexes cs ts) :
    Lexes (Ask.braced needed cs) (enclosed id needed ts) := by
  cases needed with
  | false => exact h
  | true =>
    have hwhole := (openBrace.behind_space h).behind_space closeBrace
    simpa [Ask.braced, enclosed] using hwhole

theorem triple {s p o : Slot} (hs : s.Readable) (hp : p.Readable) (ho : o.Readable) :
    Lexes (s.written ++ ' ' :: p.written ++ ' ' :: o.written ++ [' ', '.'])
      [.slot s, .slot p, .slot o, .dot] := by
  have hwhole := ((slot hs).behind_space (slot hp)).behind_space (slot ho)
  exact hwhole.behind_space dot

theorem notExists (h : Lexes cs ts) :
    Lexes ("FILTER NOT EXISTS ".toList ++ cs) (absence id ts) := by
  have hfilter : Lexes "FILTER".toList [.word "FILTER"] := reserved (by decide)
  have hnot : Lexes "NOT".toList [.word "NOT"] := reserved (by decide)
  have hexists : Lexes "EXISTS".toList [.word "EXISTS"] := reserved (by decide)
  exact ((hfilter.behind_space hnot).behind_space hexists).behind_space h

/-- Alternatives with spaces around the word between them. -/
theorem union {css : List (List Char)} {tss : List (List Token)}
    (h : List.Forall₂ Lexes css tss) :
    Lexes (" UNION ".toList.intercalate css) ([.word "UNION"].intercalate tss) := by
  have hunion : Lexes "UNION".toList [.word "UNION"] := reserved (by decide)
  induction h with
  | nil => exact nil
  | cons hcs hrest ih =>
    cases hrest with
    | nil =>
      rw [List.intercalate_singleton, List.intercalate_singleton]
      exact hcs
    | cons hds hrest =>
      have hwhole := (hcs.behind_space hunion).behind_space ih
      simpa [List.intercalate_cons_cons] using hwhole

end Ask.Lexes

namespace Scheme
variable {s : Scheme} {d : Dimension}

/-- Whatever a keyword is bound to, queries have tokens for it. -/
def Spells (s : Scheme) (d : Dimension) (word : String) : Prop :=
  ∀ b, s.vocabulary.lookup d word = some b →
    (Ask.Slot.ofText b.predicate).Readable ∧ (Ask.Slot.term b.value).Readable

theorem name_isVariable (d : Dimension) : Ask.IsVariable d.name.toList := by
  cases d <;> decide

theorem keywordClause_ok {word : String} {c : Ask.Clause} (h : s.keywordClause d word = .ok c) :
    ∃ b, s.vocabulary.lookup d word = some b ∧
      c = .triple (.var d.name) (.ofText b.predicate) (.term b.value) := by
  unfold keywordClause at h
  split at h
  · cases h
  · next b hb =>
    cases h
    exact ⟨b, hb, rfl⟩

theorem clauses_cons_ok {e : Expression} {rest : List Expression} {cs : List Ask.Clause}
    (h : s.clauses d (e :: rest) = .ok cs) :
    ∃ c more, s.clause d e = .ok c ∧ s.clauses d rest = .ok more ∧ cs = c :: more := by
  rw [clauses] at h
  obtain ⟨c, hc, h⟩ := bind_eq_ok.mp h
  obtain ⟨more, hmore, h⟩ := bind_eq_ok.mp h
  cases h
  exact ⟨c, more, hc, hmore, rfl⟩

mutual

/-- Only expressions over known keywords have a clause. -/
theorem lookup_of_clause {e : Expression} {c : Ask.Clause} (h : s.clause d e = .ok c) :
    ∀ word ∈ e.keywords, (s.vocabulary.lookup d word).isSome := by
  match e, h with
  | .keyword word, h =>
    obtain ⟨b, hb, -⟩ := keywordClause_ok h
    intro w hw
    rw [List.mem_singleton.mp hw, hb]
    rfl
  | .not operand, h =>
    obtain ⟨_, hoperand, -⟩ := map_eq_ok h
    exact lookup_of_clause (e := operand) hoperand
  | .all operands, h | .any operands, h =>
    obtain ⟨_, hoperands, -⟩ := map_eq_ok h
    exact lookup_of_clauses hoperands

theorem lookup_of_clauses {es : List Expression} {cs : List Ask.Clause}
    (h : s.clauses d es = .ok cs) :
    ∀ word ∈ Expression.keywordsOfAll es, (s.vocabulary.lookup d word).isSome := by
  match es, h with
  | [], _ => exact fun word hw => absurd hw List.not_mem_nil
  | e :: rest, h =>
    obtain ⟨c, more, hc, hmore, -⟩ := clauses_cons_ok h
    intro word hw
    rcases List.mem_append.mp hw with hw | hw
    · exact lookup_of_clause hc word hw
    · exact lookup_of_clauses hmore word hw

end

theorem separated_afterSpaces (cs : List Ask.Clause) :
    Turtle.Separated (Ask.Clause.writtenAfterSpaces cs) := by
  cases cs with
  | nil => exact Ask.separated_nil
  | cons c cs => exact Ask.separated_space _

theorem lexes_afterSpaces {cs : List Ask.Clause} {es : List Expression}
    {pattern : String → List Token}
    (h : List.Forall₂ (fun c e => ∀ needed, Lexes (c.writtenIn needed)
      (Ask.tokensIn pattern needed e)) cs es) :
    Lexes (Ask.Clause.writtenAfterSpaces cs) (Ask.tokensOfEach pattern false es).flatten := by
  induction h with
  | nil => exact .nil
  | cons hc hcs ih => exact (hc false).space.append (separated_afterSpaces _) ih

theorem lexes_alternatives {cs : List Ask.Clause} {es : List Expression}
    {pattern : String → List Token}
    (h : List.Forall₂ (fun c e => ∀ needed, Lexes (c.writtenIn needed)
      (Ask.tokensIn pattern needed e)) cs es) :
    List.Forall₂ Lexes (Ask.Clause.writtenAlternatives cs)
      (Ask.tokensOfEach pattern true es) := by
  induction h with
  | nil => exact .nil
  | cons hc hcs ih => exact .cons (hc true) ih

mutual

/-- The written clause of an expression has the tokens of the expression. -/
theorem lexes_clause {e : Expression} {c : Ask.Clause} (h : s.clause d e = .ok c)
    (hspells : ∀ word ∈ e.keywords, s.Spells d word) (needed : Bool) :
    Lexes (c.writtenIn needed) (Ask.tokensIn (s.pattern d) needed e) := by
  match e, h with
  | .keyword word, h =>
    obtain ⟨b, hb, rfl⟩ := keywordClause_ok h
    obtain ⟨hpredicate, hvalue⟩ := hspells word (List.mem_singleton.mpr rfl) b hb
    have hpattern : s.pattern d word = b.pattern d := by
      rw [pattern, hb]
      rfl
    rw [Ask.tokensIn, hpattern]
    exact (Lexes.triple (s := .var d.name) (name_isVariable d) hpredicate hvalue).braced needed
  | .not operand, h =>
    obtain ⟨c, hc, rfl⟩ := map_eq_ok h
    exact (lexes_clause hc hspells true).notExists.braced needed
  | .all operands, h =>
    obtain ⟨cs, hcs, rfl⟩ := map_eq_ok h
    have hinside := lexes_afterSpaces (lexes_clauses hcs hspells)
    exact (Lexes.openBrace.append (separated_afterSpaces cs) hinside).behind_space Lexes.closeBrace
  | .any operands, h =>
    obtain ⟨cs, hcs, rfl⟩ := map_eq_ok h
    exact (Lexes.union (lexes_alternatives (lexes_clauses hcs hspells))).braced needed

theorem lexes_clauses {es : List Expression} {cs : List Ask.Clause}
    (h : s.clauses d es = .ok cs)
    (hspells : ∀ word ∈ Expression.keywordsOfAll es, s.Spells d word) :
    List.Forall₂ (fun c e => ∀ needed, Lexes (c.writtenIn needed)
      (Ask.tokensIn (s.pattern d) needed e)) cs es := by
  match es, h with
  | [], h =>
    cases h
    exact .nil
  | e :: rest, h =>
    obtain ⟨c, more, hc, hmore, rfl⟩ := clauses_cons_ok h
    exact .cons (lexes_clause hc fun word hw => hspells word (List.mem_append_left _ hw))
      (lexes_clauses hmore fun word hw => hspells word (List.mem_append_right _ hw))

end

/-- The text of the query for an expression has the tokens of the query. -/
theorem tokens_query {e : Expression} {c : Ask.Clause} (h : s.clause d e = .ok c)
    (hspells : ∀ word ∈ e.keywords, s.Spells d word) :
    Ask.tokens (Ask.toText ⟨[c]⟩).toList = some (Ask.queryTokens (s.pattern d) e) := by
  have hask : Lexes "ASK".toList [.word "ASK"] := .reserved (by decide)
  have hwhere : Lexes "WHERE".toList [.word "WHERE"] := .reserved (by decide)
  have hclause := (Lexes.openBrace.behind_space (lexes_clause h hspells false)).behind_space
    Lexes.closeBrace
  have hwhole := (hask.behind_space hwhere).behind_space hclause
  have hclauses : Ask.Clause.writtenAfterSpaces [c] = ' ' :: c.writtenIn false := by
    simp [Ask.Clause.writtenAfterSpaces]
  have hwritten : Ask.written ⟨[c]⟩ = "ASK".toList ++ ' ' :: "WHERE".toList ++
      ' ' :: (['\x7b'] ++ ' ' :: c.writtenIn false ++ ' ' :: ['\x7d']) := by
    unfold Ask.written
    rw [hclauses]
    rfl
  have htext : (Ask.toText ⟨[c]⟩).toList = Ask.written ⟨[c]⟩ := String.toList_ofList
  rw [htext, hwritten, hwhole.tokens_eq]
  rfl

end Scheme

end ContextPolicy
