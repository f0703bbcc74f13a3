import ContextPolicy.Proofs.Expression.Grammar
import ContextPolicy.Proofs.Expression.Spans
import Mathlib.Data.List.Forall2

/-! Expressions and their written forms correspond one to one.

An expression is canonical when its words are keywords and its repetitions have at least two
operands. These are the expressions that texts stand for: derivations from keywords give no
others (`Operand.canonical`), and the written form of such an expression lexes to tokens that
derive it (`writtenIn_lexes`). The written form of any other expression does not stand for
it, as `read_toText` says. -/
namespace ContextPolicy.Expression

mutual

def Canonical : Expression → Prop
  | keyword word => IsKeyword word
  | not operand => operand.Canonical
  | all operands | any operands => 2 ≤ operands.length ∧ CanonicalEach operands

def CanonicalEach : List Expression → Prop
  | [] => True
  | e :: rest => e.Canonical ∧ CanonicalEach rest

end

mutual

def decCanonical : (e : Expression) → Decidable e.Canonical
  | keyword word => inferInstanceAs (Decidable (IsKeyword word))
  | not operand => decCanonical operand
  | all operands | any operands =>
    have := decCanonicalEach operands
    inferInstanceAs (Decidable (2 ≤ operands.length ∧ CanonicalEach operands))

def decCanonicalEach : (es : List Expression) → Decidable (CanonicalEach es)
  | [] => .isTrue trivial
  | e :: rest =>
    have := decCanonical e
    have := decCanonicalEach rest
    inferInstanceAs (Decidable (e.Canonical ∧ CanonicalEach rest))

end

instance : DecidablePred Canonical :=
  decCanonical

theorem canonicalEach_append {es fs : List Expression} (h : CanonicalEach es)
    (h' : CanonicalEach fs) : CanonicalEach (es ++ fs) := by
  induction es with
  | nil => exact h'
  | cons e rest ih => exact ⟨h.1, ih h.2⟩

/-! ### Derivations give canonical expressions -/

theorem gathered_canonical (operator : List Expression → Expression)
    (hoperator : ∀ es, 2 ≤ es.length → CanonicalEach es → (operator es).Canonical)
    {es : List Expression} (hne : es ≠ []) (h : CanonicalEach es) :
    (gathered operator es).Canonical := by
  match es, hne, h with
  | [e], _, h => exact h.1
  | e :: f :: rest, _, h => exact hoperator _ (by simp) h

theorem Conjunction.gathered_canonical {ts : List Token} {es : List Expression}
    (h : Conjunction ts es) (hes : CanonicalEach es) : (gathered all es).Canonical :=
  Expression.gathered_canonical all (fun _ hlength heach => ⟨hlength, heach⟩) h.ne_nil hes

theorem Disjunction.gathered_canonical {ts : List Token} {es : List Expression}
    (h : Disjunction ts es) (hes : CanonicalEach es) : (gathered any es).Canonical :=
  Expression.gathered_canonical any (fun _ hlength heach => ⟨hlength, heach⟩) h.ne_nil hes

/-- The words among the tokens are keywords. -/
def Keywords (ts : List Token) : Prop :=
  ∀ word, .word word ∈ ts → IsKeyword word

theorem Keywords.append {ts us : List Token} (h : Keywords (ts ++ us)) :
    Keywords ts ∧ Keywords us :=
  ⟨fun word hword => h word (List.mem_append_left us hword),
    fun word hword => h word (List.mem_append_right ts hword)⟩

theorem Keywords.tail {t : Token} {ts : List Token} (h : Keywords (t :: ts)) : Keywords ts :=
  fun word hword => h word (List.mem_cons_of_mem t hword)

theorem keywords_tokens (text : String) : Keywords ((tokens text).map (·.2)) :=
  fun _ hword => isKeyword_of_mem_tokens hword

mutual

theorem Operand.canonical {ts : List Token} {e : Expression} (h : Operand ts e)
    (hts : Keywords ts) : e.Canonical := by
  match h with
  | .word text => exact hts text List.mem_cons_self
  | .not he => exact he.canonical hts.tail
  | .parens hes => exact hes.gathered_canonical (hes.canonical hts.append.1.tail)

theorem Conjunction.canonical {ts : List Token} {es : List Expression} (h : Conjunction ts es)
    (hts : Keywords ts) : CanonicalEach es := by
  match h with
  | .one he => exact ⟨he.canonical hts, trivial⟩
  | .snoc hes he =>
    exact canonicalEach_append (hes.canonical hts.append.1)
      ⟨he.canonical hts.append.2.tail, trivial⟩

theorem Disjunction.canonical {ts : List Token} {es : List Expression} (h : Disjunction ts es)
    (hts : Keywords ts) : CanonicalEach es := by
  match h with
  | .one hfs => exact ⟨hfs.gathered_canonical (hfs.canonical hts), trivial⟩
  | .snoc hes hfs =>
    exact canonicalEach_append (hes.canonical hts.append.1)
      ⟨hfs.gathered_canonical (hfs.canonical hts.append.2.tail), trivial⟩

end

theorem Spells.canonical {ts : List Token} {e : Expression} (h : Spells ts e)
    (hts : Keywords ts) : e.Canonical := by
  obtain ⟨es, hes, rfl⟩ := h
  exact hes.gathered_canonical (hes.canonical hts)

/-! ### Canonical expressions are derived from their written form -/

theorem Operand.spells {ts : List Token} {e : Expression} (h : Operand ts e) : Spells ts e :=
  ⟨[e], .one (.one h), rfl⟩

/-- Operands, each with its own tokens, make a repetition. -/
theorem repetition_of_operands {P : List Token → List Expression → Prop} {separator : Token}
    (hone : ∀ ts e, Operand ts e → P ts [e])
    (hcons : ∀ ts e us es, Operand ts e → P us es → P (ts ++ separator :: us) (e :: es))
    {tss : List (List Token)} {es : List Expression} (h : List.Forall₂ Operand tss es)
    (hne : es ≠ []) : P ([separator].intercalate tss) es := by
  induction h with
  | nil => exact absurd rfl hne
  | cons he hes ih =>
    cases hes with
    | nil =>
      rw [List.intercalate_singleton]
      exact hone _ _ he
    | cons hf hrest =>
      rw [List.intercalate_cons_cons, List.append_assoc]
      exact hcons _ _ _ _ he (ih (List.cons_ne_nil _ _))

theorem conjunction_of_operands {tss : List (List Token)} {es : List Expression}
    (h : List.Forall₂ Operand tss es) (hne : es ≠ []) :
    Conjunction ([.and].intercalate tss) es :=
  repetition_of_operands (fun _ _ => .one) (fun _ _ _ _ => .cons) h hne

theorem disjunction_of_operands {tss : List (List Token)} {es : List Expression}
    (h : List.Forall₂ Operand tss es) (hne : es ≠ []) :
    Disjunction ([.or].intercalate tss) es :=
  repetition_of_operands (fun _ _ he => .one (.one he)) (fun _ _ _ _ he => .cons (.one he)) h hne

theorem isBlank_space : Text.isBlank ' ' = true := by
  decide

/-- An operator between blanks keeps the pieces around it apart. -/
theorem Lexes.intercalate {operator : List Char} {t : Token} (h : Lexes operator [t])
    {css : List (List Char)} {tss : List (List Token)} (hall : List.Forall₂ Lexes css tss) :
    Lexes ((' ' :: operator ++ [' ']).intercalate css) ([t].intercalate tss) := by
  induction hall with
  | nil => exact .nil
  | cons hcs hrest ih =>
    cases hrest with
    | nil =>
      rw [List.intercalate_singleton, List.intercalate_singleton]
      exact hcs
    | cons hds hrest =>
      have hbehind := h.append (stops_of_blank isBlank_space _) (ih.blank isBlank_space)
      have hwhole := hcs.append (stops_of_blank isBlank_space _) (hbehind.blank isBlank_space)
      simpa only [List.intercalate_cons_cons, List.append_assoc, List.cons_append,
        List.nil_append] using hwhole

theorem lexes_and : Lexes "and".toList [.and] :=
  Lexes.word (by decide) (List.all_eq_true.mp rfl)

theorem lexes_or : Lexes "or".toList [.or] :=
  Lexes.word (by decide) (List.all_eq_true.mp rfl)

theorem lexes_not : Lexes "not".toList [.not] :=
  Lexes.word (by decide) (List.all_eq_true.mp rfl)

/-- In parentheses any expression is an operand. -/
theorem Lexes.parens {cs : List Char} {ts : List Token} {e : Expression} (h : Lexes cs ts)
    (he : Spells ts e) : ∃ us, Lexes ('(' :: cs ++ [')']) us ∧ Operand us e := by
  have hclose : Stops [')'] := by
    rintro c ⟨⟩
    decide
  obtain ⟨es, hes, rfl⟩ := he
  exact ⟨_, (h.append hclose Lexes.nil.closeParen).openParen, .parens hes⟩

section
variable {es : List Expression} {tss : List (List Token)}
  (hlexes : List.Forall₂ Lexes (writtenOperands es) tss) (hes : List.Forall₂ Operand tss es)
  (hlength : 2 ≤ es.length)
include hlexes hes hlength

theorem all_lexes : ∃ ts, Lexes (" and ".toList.intercalate (writtenOperands es)) ts ∧
    Spells ts (all es) := by
  have hall : gathered all es = all es := gathered_eq (by omega)
  have hconjunction := conjunction_of_operands hes (List.ne_nil_of_length_pos (by omega))
  refine ⟨_, lexes_and.intercalate hlexes, [all es], ?_, rfl⟩
  rw [← hall]
  exact .one hconjunction

theorem any_lexes : ∃ ts, Lexes (" or ".toList.intercalate (writtenOperands es)) ts ∧
    Spells ts (any es) := by
  have hany : gathered any es = any es := gathered_eq (by omega)
  have hdisjunction := disjunction_of_operands hes (List.ne_nil_of_length_pos (by omega))
  exact ⟨_, lexes_or.intercalate hlexes, es, hdisjunction, hany.symm⟩

end

mutual

/-- Inside another operator the written form is that of an operand. -/
theorem writtenIn_lexes {e : Expression} (h : e.Canonical) :
    ∃ ts, Lexes (writtenIn true e) ts ∧ Operand ts e := by
  match e, h with
  | keyword word, h => exact ⟨_, .keyword h, .word word⟩
  | not operand, h =>
    obtain ⟨ts, hlexes, he⟩ := writtenIn_lexes (e := operand) h
    exact ⟨_, lexes_not.append (stops_of_blank isBlank_space _) (hlexes.blank isBlank_space),
      .not he⟩
  | all es, ⟨hlength, heach⟩ =>
    obtain ⟨tss, hlexes, hes⟩ := writtenOperands_lexes heach
    obtain ⟨ts, hts, hspells⟩ := all_lexes hlexes hes hlength
    exact hts.parens hspells
  | any es, ⟨hlength, heach⟩ =>
    obtain ⟨tss, hlexes, hes⟩ := writtenOperands_lexes heach
    obtain ⟨ts, hts, hspells⟩ := any_lexes hlexes hes hlength
    exact hts.parens hspells

theorem writtenOperands_lexes {es : List Expression} (h : CanonicalEach es) :
    ∃ tss, List.Forall₂ Lexes (writtenOperands es) tss ∧ List.Forall₂ Operand tss es := by
  match es, h with
  | [], _ => exact ⟨[], .nil, .nil⟩
  | e :: rest, ⟨he, hrest⟩ =>
    obtain ⟨ts, hlexes, hoperand⟩ := writtenIn_lexes he
    obtain ⟨tss, hlexeses, hoperands⟩ := writtenOperands_lexes hrest
    exact ⟨ts :: tss, .cons hlexes hlexeses, .cons hoperand hoperands⟩

end

/-- The written form of a canonical expression derives it. -/
theorem written_lexes {e : Expression} (h : e.Canonical) :
    ∃ ts, Lexes e.written ts ∧ Spells ts e := by
  match e, h with
  | keyword word, h => exact ⟨_, .keyword h, (Operand.word word).spells⟩
  | not operand, h =>
    obtain ⟨ts, hlexes, hoperand⟩ := writtenIn_lexes (e := not operand) h
    exact ⟨ts, hlexes, hoperand.spells⟩
  | all es, ⟨hlength, heach⟩ =>
    obtain ⟨tss, hlexes, hes⟩ := writtenOperands_lexes heach
    exact all_lexes hlexes hes hlength
  | any es, ⟨hlength, heach⟩ =>
    obtain ⟨tss, hlexes, hes⟩ := writtenOperands_lexes heach
    exact any_lexes hlexes hes hlength

/-! ### Texts and expressions -/

theorem read_eq_ok_iff (text : String) (e : Expression) :
    read text = .ok e ↔ Spells ((tokens text).map (·.2)) e :=
  readTokens_eq_ok_iff _ _ e

theorem canonical_of_read {text : String} {e : Expression} (h : read text = .ok e) :
    e.Canonical :=
  ((read_eq_ok_iff text e).mp h).canonical (keywords_tokens text)

theorem read_written {e : Expression} (h : e.Canonical) : read e.toText = .ok e := by
  obtain ⟨ts, hlexes, hspells⟩ := written_lexes h
  rw [read_eq_ok_iff, toText, hlexes.tokens_eq]
  exact hspells

/-- Reading gives canonical expressions only, and gives each of them back from its written
form. So it is the canonical ones that their written form stands for. -/
theorem read_toText : (∀ text e, read text = .ok e → e.Canonical) ∧
    (∀ e : Expression, e.Canonical → read e.toText = .ok e) ∧
    ∀ e : Expression, read e.toText = .ok e ↔ e.Canonical :=
  ⟨fun _ _ => canonical_of_read, fun _ => read_written,
    fun _ => ⟨canonical_of_read, read_written⟩⟩

example : (all [keyword "A", any [keyword "B", not (keyword "c")]]).Canonical := by
  decide +kernel

example : ¬(any [keyword "A", all [keyword "b"]]).Canonical := by
  decide +kernel

end ContextPolicy.Expression
