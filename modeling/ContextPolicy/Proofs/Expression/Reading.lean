import ContextPolicy.Proofs.Expression.Grammar

/-! Reading decides the grammar.

The reader answers for any tokens after one pass over them, and it has one answer. So tokens
are those of one expression at most: the grammar is not ambiguous (`Spells.unique`), and where
the reader finds a fault, no expression is derived at all. A derivation takes up each token
once and keeps their order, so the keywords of an expression are the words of its tokens
(`Spells.keywords`). -/
namespace ContextPolicy.Expression

/-! ### Words -/

/-- The text of a token that is a word. -/
def Token.word? : Token → Option String
  | .word text => some text
  | _ => none

/-- The words among tokens, in their order. -/
def words (ts : List Token) : List String :=
  ts.filterMap Token.word?

theorem words_append (ts us : List Token) : words (ts ++ us) = words ts ++ words us :=
  List.filterMap_append

/-- A token that is no word does not count. -/
theorem words_cons_of_none {t : Token} (ht : t.word? = none) (ts : List Token) :
    words (t :: ts) = words ts :=
  List.filterMap_cons_none ht

theorem keywordsOfAll_append (es fs : List Expression) :
    keywordsOfAll (es ++ fs) = keywordsOfAll es ++ keywordsOfAll fs := by
  simp only [keywordsOfAll_eq_flatMap, List.flatMap_append]

theorem keywordsOfAll_singleton (e : Expression) : keywordsOfAll [e] = e.keywords :=
  List.append_nil _

/-- To gather operands is not to change their keywords. -/
theorem keywords_gathered {operator : List Expression → Expression}
    (hoperator : ∀ es, (operator es).keywords = keywordsOfAll es) (es : List Expression) :
    (gathered operator es).keywords = keywordsOfAll es := by
  match es with
  | [] => exact hoperator []
  | [e] => exact (keywordsOfAll_singleton e).symm
  | e :: f :: rest =>
    rw [gathered_eq (by simp)]
    exact hoperator _

mutual

theorem Operand.keywords {ts : List Token} {e : Expression} (h : Operand ts e) :
    e.keywords = words ts := by
  match h with
  | .word text => rfl
  | .not he =>
    rw [words_cons_of_none rfl]
    exact he.keywords
  | .parens hes =>
    rw [keywords_gathered (fun _ => rfl), hes.keywords, words_append, words_cons_of_none rfl]
    exact (List.append_nil _).symm

theorem Conjunction.keywords {ts : List Token} {es : List Expression} (h : Conjunction ts es) :
    keywordsOfAll es = words ts := by
  match h with
  | .one he =>
    rw [keywordsOfAll_singleton]
    exact he.keywords
  | .snoc hes he =>
    rw [keywordsOfAll_append, keywordsOfAll_singleton, words_append, words_cons_of_none rfl,
      hes.keywords, he.keywords]

theorem Disjunction.keywords {ts : List Token} {es : List Expression} (h : Disjunction ts es) :
    keywordsOfAll es = words ts := by
  match h with
  | .one hfs =>
    rw [keywordsOfAll_singleton, keywords_gathered (fun _ => rfl)]
    exact hfs.keywords
  | .snoc hes hfs =>
    rw [keywordsOfAll_append, keywordsOfAll_singleton, keywords_gathered (fun _ => rfl),
      words_append, words_cons_of_none rfl, hes.keywords, hfs.keywords]

end

/-- An expression has the words of its tokens for keywords, none lost and none moved. -/
theorem Spells.keywords {ts : List Token} {e : Expression} (h : Spells ts e) :
    e.keywords = words ts := by
  obtain ⟨es, hes, rfl⟩ := h
  rw [keywords_gathered (fun _ => rfl), hes.keywords]

/-! ### One answer -/

/-- Tokens are those of one expression at most. -/
theorem Spells.unique {ts : List Token} {e f : Expression} (h : Spells ts e)
    (h' : Spells ts f) : e = f := by
  -- The reader gives both, wherever the tokens stand.
  have hplaced : (ts.map fun t => (0, t)).map (·.2) = ts := by
    rw [List.map_map]
    exact List.map_id ts
  have hread : ∀ e, readTokens 0 (ts.map fun t => (0, t)) = .ok e ↔ Spells ts e := by
    intro e
    rw [readTokens_eq_ok_iff, hplaced]
  exact Except.ok.inj (((hread e).mpr h).symm.trans ((hread f).mpr h'))

theorem readTokens_decides (n : Nat) (tokens : List (Nat × Token)) :
    (∃ e, readTokens n tokens = .ok e ∧ Spells (tokens.map (·.2)) e) ∨
      ∃ fault, readTokens n tokens = .error fault ∧ ∀ e, ¬Spells (tokens.map (·.2)) e := by
  cases hread : readTokens n tokens with
  | ok e => exact .inl ⟨e, rfl, (readTokens_eq_ok_iff n tokens e).mp hread⟩
  | error fault =>
    refine .inr ⟨fault, rfl, fun e hspells => ?_⟩
    rw [(readTokens_eq_ok_iff n tokens e).mpr hspells] at hread
    cases hread

/-- A text is read as the expression that its tokens derive. There is one at most, with the
words of the text for keywords; and for any tokens the reader ends, with the expression that
they derive or with a fault where they derive none. -/
theorem reading_decides_grammar :
    (∀ text e, read text = .ok e ↔ Spells ((tokens text).map (·.2)) e) ∧
    (∀ text e, read text = .ok e → e.keywords = words ((tokens text).map (·.2))) ∧
    (∀ ts e f, Spells ts e → Spells ts f → e = f) ∧
    ∀ n tokens, (∃ e, readTokens n tokens = .ok e ∧ Spells (tokens.map (·.2)) e) ∨
      ∃ fault, readTokens n tokens = .error fault ∧ ∀ e, ¬Spells (tokens.map (·.2)) e := by
  refine ⟨fun text e => ?_, fun text e h => ?_, fun ts e f => Spells.unique, readTokens_decides⟩
  · exact readTokens_eq_ok_iff _ _ e
  · exact ((readTokens_eq_ok_iff _ _ e).mp h).keywords

example : (read "staff OR (laptop && !guest)").toOption =
    some (any [keyword "staff", all [keyword "laptop", not (keyword "guest")]]) := by
  decide +kernel

end ContextPolicy.Expression
