import ContextPolicy.Proofs.Condition.Terms
import ContextPolicy.Proofs.Expression.Canonical
import ContextPolicy.Proofs.Expression.Reading
import ContextPolicy.Proofs.RdfXml.Lexing
import ContextPolicy.Proofs.Timestamp.Reading

/-! The values of a condition's literals.

A condition writes the texts of the facts as they are: the keywords of the expressions, and
the moments of a window. Beside them it has numbers, the unit, and queries. None of these
has white space at its ends (`trimmed_compile`): moments and numbers have digits there, and
no keyword that was read holds any. -/
namespace ContextPolicy

open Xml (Trimmed)

/-! ### Characters -/

namespace Xml

theorem Trimmed.of_forall {cs : List Char} (h : ∀ c ∈ cs, Lexer.isBlank c = false) : Trimmed cs :=
  ⟨fun c hc => h c (List.mem_of_mem_head? hc), fun c hc => h c (List.mem_of_getLast? hc)⟩

theorem Lexer.isBlank_cases {c : Char} (h : isBlank c = true) :
    c = ' ' ∨ c = '\t' ∨ c = '\n' ∨ c = '\r' := by
  simpa [isBlank, or_assoc] using h

theorem Lexer.isBlank_of_isDigit {c : Char} (h : c.isDigit) : isBlank c = false := by
  by_contra hblank
  obtain rfl | rfl | rfl | rfl := isBlank_cases (Bool.not_eq_false _ ▸ hblank) <;> cases h

/-- What is no white space anywhere is none in XML. -/
theorem Lexer.isBlank_of_text {c : Char} (h : Text.isBlank c = false) : isBlank c = false := by
  by_contra hblank
  obtain rfl | rfl | rfl | rfl := isBlank_cases (Bool.not_eq_false _ ▸ hblank) <;>
    exact absurd h (by decide)

end Xml

/-! ### Texts -/

/-- A keyword that was read has no white space in it. -/
theorem Expression.trimmed_of_read {text word : String} {e : Expression}
    (h : read text = .ok e) (hword : word ∈ e.keywords) : Trimmed word.toList := by
  have hspells := (read_eq_ok_iff text e).mp h
  rw [hspells.keywords] at hword
  obtain ⟨t, ht, hw⟩ := List.mem_filterMap.mp hword
  have hkeyword : IsKeyword word := by
    cases t with
    | word text =>
      cases hw
      exact keywords_tokens _ _ ht
    | and | or | not | openParen | closeParen => cases hw
  exact .of_forall fun c hc => Xml.Lexer.isBlank_of_text (hkeyword.noBlank c hc)

namespace Timestamp

theorem trimmed_of_numerals {first last : List Char} {k l m n : Nat} (middle : List Char)
    (hm : Numeral k first m) (hn : Numeral l last n) (hk : 0 < k) (hl : 0 < l) :
    Trimmed (first ++ middle ++ last) := by
  have hfirst : first ≠ [] := List.ne_nil_of_length_pos (hm.length ▸ hk)
  have hlast : last ≠ [] := List.ne_nil_of_length_pos (hn.length ▸ hl)
  constructor
  · intro c hc
    rw [List.append_assoc, List.head?_append_of_ne_nil _ hfirst] at hc
    exact Xml.Lexer.isBlank_of_isDigit (hm.digits c (List.mem_of_mem_head? hc))
  · intro c hc
    rw [List.getLast?_append_of_ne_nil _ hlast] at hc
    exact Xml.Lexer.isBlank_of_isDigit (hn.digits c (List.mem_of_getLast? hc))

/-- A moment begins and ends with a digit. -/
theorem trimmed_of_read {f : DateFormat} {text : String} {t : Timestamp}
    (h : read f text = some t) : Trimmed text.toList := by
  have hspelled := read_eq_some_iff.mp h
  generalize text.toList = cs at hspelled
  cases hspelled with
  | @date a b c _ _ _ ha hb hc =>
    have hends := trimmed_of_numerals ('/' :: b ++ ['/']) ha hc (by decide) (by decide)
    simpa using hends
  | @time a b _ _ ha hb =>
    have hends := trimmed_of_numerals [':'] ha hb (by decide) (by decide)
    simpa using hends

end Timestamp

namespace Number

/-- Digits around a point. -/
theorem mem_positional {d : Decimal} {c : Char} (h : c ∈ positional d) : c.isDigit ∨ c = '.' := by
  have hleading : ∀ c ∈ d.leading, c.isDigit := by
    intro c hc
    rw [Decimal.leading, List.mem_reverse] at hc
    have hdigits := List.mem_reverse.mp (List.dropWhile_sublist _ |>.subset hc)
    exact Nat.isDigit_of_mem_toDigits (by decide) (by decide) hdigits
  have hzeros : ∀ n, ∀ c ∈ List.replicate n '0', c.isDigit := by
    intro n c hc
    rw [List.eq_of_mem_replicate hc]
    rfl
  unfold positional at h
  simp only at h
  split_ifs at h
  · simp only [List.cons_append, List.mem_cons, List.mem_append] at h
    obtain rfl | rfl | h | h := h
    · exact .inl rfl
    · exact .inr rfl
    · exact .inl (hzeros _ c h)
    · exact .inl (hleading c h)
  · obtain h | h := List.mem_append.mp h
    · exact .inl (hleading c h)
    · exact .inl (hzeros _ c h)
  · simp only [List.mem_append, List.mem_cons] at h
    obtain h | rfl | h := h
    · exact .inl (hleading c (List.mem_of_mem_take h))
    · exact .inr rfl
    · exact .inl (hleading c (List.mem_of_mem_drop h))

/-- Digits, a point and a sign, or letters: no number has white space in it. -/
theorem trimmed_toText (x : Float) : Trimmed (toText x).toList := by
  have hsign : ∀ c ∈ if isNegative x then ['-'] else [], Xml.Lexer.isBlank c = false := by
    split_ifs <;> simp [Xml.Lexer.isBlank]
  have hmagnitude : ∀ c ∈ magnitude x, Xml.Lexer.isBlank c = false := by
    intro c hc
    unfold magnitude at hc
    split_ifs at hc
    · rw [List.mem_singleton.mp hc]
      rfl
    · obtain hdigit | rfl := mem_positional hc
      · exact Xml.Lexer.isBlank_of_isDigit hdigit
      · rfl
  have hvalue : ∀ c ∈ if x.isFinite then magnitude x else ['i', 'n', 'f'],
      Xml.Lexer.isBlank c = false := by
    split_ifs
    · exact hmagnitude
    · simp [Xml.Lexer.isBlank]
  refine .of_forall ?_
  by_cases hnan : x.isNaN
  · rw [toText, if_pos hnan]
    simp [Xml.Lexer.isBlank]
  · rw [toText, if_neg hnan, String.toList_ofList]
    exact List.forall_mem_append.mpr ⟨hsign, hvalue⟩

end Number

/-! ### Literals -/

/-- If the term is a literal, its value is like this. -/
def Term.ValueIs (P : String → Prop) (x : Term) : Prop :=
  ∀ value, x.literalValue? = some value → P value

section
variable {P : String → Prop}

theorem Term.valueIs_blank (label : String) : (Term.blank label).ValueIs P :=
  fun _ h => nomatch h

theorem Term.valueIs_named (iri : String) : (Term.named iri).ValueIs P :=
  fun _ h => nomatch h

theorem Term.valueIs_literal {value : String} (h : P value) (datatype lang : Option String) :
    (Term.literal value datatype lang).ValueIs P := by
  intro other heq
  cases heq
  exact h

theorem Term.ValueIs.rename {x : Term} (h : x.ValueIs P) (ρ : String → String) :
    (x.rename ρ).ValueIs P := by
  cases x with
  | blank label => exact valueIs_blank _
  | named iri | literal value datatype lang => exact h

/-- The cells of a list have its literals. -/
theorem Chain.valueIs_triples (k : Nat) {members : List Term} (h : ∀ m ∈ members, m.ValueIs P) :
    ∀ t ∈ triples conditionNode k members, t.object.ValueIs P := by
  induction members generalizing k with
  | nil => exact fun t ht => absurd ht List.not_mem_nil
  | cons m rest ih =>
    obtain ⟨hm, hrest⟩ := List.forall_mem_cons.mp h
    rw [triples, List.forall_mem_cons, List.forall_mem_cons]
    refine ⟨hm, ?_, ih (k + 1) hrest⟩
    cases rest with
    | nil => exact Term.valueIs_named _
    | cons m' rest => exact Term.valueIs_blank _

namespace Expression

/-- Operators over operands add no literals. -/
theorem valueIs_ofOperands {n : Nat} {property : String} {operands : Emissions}
    (hnodes : ∀ m ∈ operands.nodes, m.ValueIs P)
    (h : ∀ t ∈ operands.triples, t.object.ValueIs P) :
    ∀ t ∈ (Emission.ofOperands n property operands).triples, t.object.ValueIs P := by
  rw [Emission.ofOperands, List.forall_mem_append, List.forall_mem_cons]
  refine ⟨h, ?_, Chain.valueIs_triples _ hnodes⟩
  cases operands.nodes with
  | nil => exact Term.valueIs_named _
  | cons m rest => exact Term.valueIs_blank _

mutual

/-- The literals of an expression are its keywords. -/
theorem valueIs_emit (n : Nat) : (e : Expression) → (∀ word ∈ e.keywords, P word) →
    (emit n e).node.ValueIs P ∧ ∀ t ∈ (emit n e).triples, t.object.ValueIs P
  | keyword word, h =>
    ⟨Term.valueIs_literal (h word (List.mem_singleton_self word)) none none,
      fun t ht => absurd ht List.not_mem_nil⟩
  | not operand, h => by
    obtain ⟨hnode, htriples⟩ := valueIs_emit (n + 1) operand h
    refine ⟨Term.valueIs_blank _, ?_⟩
    rw [emit, Emission.ofOperand, List.forall_mem_append, List.forall_mem_singleton]
    exact ⟨htriples, hnode⟩
  | all operands, h | any operands, h => by
    obtain ⟨hnodes, htriples⟩ := valueIs_emitEach (n + 1) operands h
    exact ⟨Term.valueIs_blank _, valueIs_ofOperands hnodes htriples⟩

theorem valueIs_emitEach (n : Nat) : (es : List Expression) →
    (∀ word ∈ keywordsOfAll es, P word) →
    (∀ m ∈ (emitEach n es).nodes, m.ValueIs P) ∧
      ∀ t ∈ (emitEach n es).triples, t.object.ValueIs P
  | [], _ =>
    ⟨fun m hm => absurd hm List.not_mem_nil, fun t ht => absurd ht List.not_mem_nil⟩
  | e :: rest, h => by
    obtain ⟨hfirst, hmore⟩ := List.forall_mem_append.mp h
    obtain ⟨hnode, htriples⟩ := valueIs_emit n e hfirst
    obtain ⟨hnodes, hrest⟩ := valueIs_emitEach (emit n e).next rest hmore
    exact ⟨List.forall_mem_cons.mpr ⟨hnode, hnodes⟩, List.forall_mem_append.mpr ⟨htriples, hrest⟩⟩

end

end Expression

end

/-! ### Conditions -/

/-- The expression of a fact, if it has one, was read from a text. -/
def Fact.WasRead (fact : Fact) : Prop :=
  ∀ e, fact.expression? = some (some e) → ∃ text, Expression.read text = .ok e

/-- A query begins with a word and ends with a brace. -/
theorem Ask.trimmed_toText (q : Ask) : Trimmed q.toText.toList := by
  have hhead : q.written.head? = some 'A' := rfl
  have hlast : q.written.getLast? = some '\x7d' :=
    List.getLast?_append_of_ne_nil _ (List.cons_ne_nil _ _)
  rw [toText, String.toList_ofList, Trimmed, hhead, hlast]
  exact ⟨by simp [Xml.Lexer.isBlank], by simp [Xml.Lexer.isBlank]⟩

namespace Scheme
variable {s : Scheme} {n : Nat}

theorem trimmed_body {fact : Fact} {body : BlockBody}
    (h : s.body fact (conditionNode n) (n + 1) = .ok body) (hread : fact.WasRead) :
    ∀ t ∈ body.triples, t.object.ValueIs fun value => Trimmed value.toList := by
  cases fact with
  | user e | environment e | device e =>
    obtain ⟨e, _, rfl, -, rfl⟩ := keywordBody_ok h
    obtain ⟨text, htext⟩ := hread e rfl
    obtain ⟨hnode, htriples⟩ :=
      Expression.valueIs_emit (n + 1) e fun _ hword => Expression.trimmed_of_read htext hword
    exact List.forall_mem_append.mpr ⟨htriples, List.forall_mem_singleton.mpr hnode⟩
  | time window =>
    obtain ⟨begin, «end», _, _, -, hfirst, hlast, rfl⟩ := timeBody_ok h
    simp only [List.forall_mem_cons]
    exact ⟨Term.valueIs_literal (Timestamp.trimmed_of_read hfirst) none none,
      Term.valueIs_literal (Timestamp.trimmed_of_read hlast) none none, by simp⟩
  | outdoor area =>
    obtain ⟨latitude, longitude, radius, _, -, -, rfl⟩ := outdoorBody_ok h
    have hunit : Trimmed area.unit.symbol.toList := by
      cases area.unit <;>
        exact .of_forall (by simp [DistanceUnit.symbol, Xml.Lexer.isBlank])
    simp only [List.forall_mem_cons]
    exact ⟨Term.valueIs_literal (Number.trimmed_toText latitude) _ none,
      Term.valueIs_literal (Number.trimmed_toText longitude) _ none,
      Term.valueIs_literal (Number.trimmed_toText radius) _ none,
      Term.valueIs_literal hunit none none, by simp⟩

theorem trimmed_block {fact : Fact} {ts : List Triple} {next : Nat}
    (h : s.block fact n = .ok (ts, next)) (hread : fact.WasRead) :
    ∀ t ∈ ts, t.object.ValueIs fun value => Trimmed value.toList := by
  obtain ⟨body, hbody, -, rfl⟩ := block_ok h
  rw [List.forall_mem_cons, List.forall_mem_cons, List.forall_mem_append,
    List.forall_mem_singleton]
  exact ⟨Term.valueIs_blank _, Term.valueIs_named _, trimmed_body hbody hread,
    Term.valueIs_literal (Ask.trimmed_toText body.ask) _ none⟩

theorem trimmed_blocks {facts : List Fact} {ts : List Triple} (h : s.blocks n facts = .ok ts)
    (hread : ∀ fact ∈ facts, fact.WasRead) :
    ∀ t ∈ ts, t.object.ValueIs fun value => Trimmed value.toList := by
  induction facts generalizing n ts with
  | nil =>
    cases h
    exact fun t ht => absurd ht List.not_mem_nil
  | cons fact rest ih =>
    obtain ⟨us, next, vs, hus, hvs, rfl⟩ := blocks_cons_ok h
    obtain ⟨hfact, hrest⟩ := List.forall_mem_cons.mp hread
    exact List.forall_mem_append.mpr ⟨trimmed_block hus hfact, ih hvs hrest⟩

/-- No literal of a condition has white space at its ends, if its expressions were read. -/
theorem trimmed_compile {facts : Facts} {ts : List Triple} (h : s.compile facts = .ok ts)
    (hread : ∀ fact ∈ facts.toList, fact.WasRead) :
    ∀ t ∈ ts, t.object.ValueIs fun value => Trimmed value.toList := by
  obtain ⟨-, rfl⟩ | ⟨us, hus, rfl⟩ := compile_ok h
  · exact fun t ht => absurd ht List.not_mem_nil
  · exact List.forall_mem_cons.mpr ⟨Term.valueIs_named _, trimmed_blocks hus hread⟩

end Scheme

end ContextPolicy
