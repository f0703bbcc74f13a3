import ContextPolicy.Expression.Token
import ContextPolicy.Proofs.Text.Scan
import Mathlib.Data.List.TakeWhile
import Mathlib.Tactic.SplitIfs

/-! The words of a text, and texts whose tokens are known.

`Lexes cs ts`: wherever the characters stand with no word going on behind them, they give
these tokens and nothing before or behind them is read differently. Pieces with this
property can be put one behind the other (`Lexes.append`) as long as no two words meet. The
places of the tokens play no part in it. -/
namespace ContextPolicy.Expression

/-! ### Words -/

/-- A text that is a word, and no operator. -/
structure IsKeyword (text : String) : Prop where
  nonempty : text ≠ ""
  noBlank : ∀ c ∈ text.toList, Text.isBlank c = false
  noSign : ∀ c ∈ text.toList, c ∉ ['(', ')', '!', '&', '|']
  noOperator : Text.lowercase text ∉ ["and", "or", "not"]

theorem isWordChar_iff (c : Char) :
    isWordChar c = true ↔ Text.isBlank c = false ∧ c ∉ ['(', ')', '!', '&', '|'] := by
  simp only [isWordChar, isSign, Bool.and_eq_true, Bool.not_eq_true', Bool.or_eq_false_iff,
    decide_eq_false_iff_not, List.mem_cons, List.not_mem_nil, not_or, or_false, and_assoc]

theorem IsKeyword.wordChars {text : String} (h : IsKeyword text) :
    ∀ c ∈ text.toList, isWordChar c = true :=
  fun c hc => (isWordChar_iff c).mpr ⟨h.noBlank c hc, h.noSign c hc⟩

theorem IsKeyword.of_wordChars {text : String} (h : text ≠ "")
    (hchars : ∀ c ∈ text.toList, isWordChar c = true)
    (hoperator : Text.lowercase text ∉ ["and", "or", "not"]) : IsKeyword text where
  nonempty := h
  noBlank c hc := ((isWordChar_iff c).mp (hchars c hc)).1
  noSign c hc := ((isWordChar_iff c).mp (hchars c hc)).2
  noOperator := hoperator

instance (text : String) : Decidable (IsKeyword text) :=
  decidable_of_iff (text ≠ "" ∧ text.toList.all isWordChar = true ∧
      Text.lowercase text ∉ ["and", "or", "not"])
    ⟨fun ⟨h, hchars, hoperator⟩ => .of_wordChars h (List.all_eq_true.mp hchars) hoperator,
      fun h => ⟨h.nonempty, List.all_eq_true.mpr h.wordChars, h.noOperator⟩⟩

theorem IsKeyword.ofWord_eq {text : String} (h : IsKeyword text) :
    Token.ofWord text = .word text := by
  have hlower := h.noOperator
  simp only [List.mem_cons, List.not_mem_nil, or_false, not_or] at hlower
  unfold Token.ofWord
  rw [if_neg hlower.1, if_neg hlower.2.1, if_neg hlower.2.2]

theorem ofWord_eq_word {text word : String} (h : Token.ofWord text = .word word) :
    word = text ∧ Text.lowercase text ∉ ["and", "or", "not"] := by
  simp only [Token.ofWord] at h
  split_ifs at h with hand hor hnot
  exact ⟨(Token.word.inj h).symm, by simp [hand, hor, hnot]⟩

theorem token_of_wordChar {c : Char} (h : isWordChar c = true) (rest : List Char) :
    token c rest = (.ofWord (String.ofList (c :: rest.takeWhile isWordChar)),
      rest.takeWhile isWordChar) := by
  have hsign := ((isWordChar_iff c).mp h).2
  simp only [List.mem_cons, List.not_mem_nil, or_false, not_or] at hsign
  obtain ⟨hopen, hclose, hnot, hand, hor⟩ := hsign
  unfold token
  rw [if_neg hopen, if_neg hclose, if_neg hnot, if_neg (not_or.mpr ⟨hand, hor⟩)]

/-! ### Pieces of text -/

/-- No word that ends here goes on in the characters. -/
def Stops (cs : List Char) : Prop :=
  ∀ c ∈ cs.head?, isWordChar c = false

def Lexes (cs : List Char) (ts : List Token) : Prop :=
  ∀ offset rest, Stops rest → ∃ next, (tokensFrom offset (cs ++ rest)).map (·.2) =
    ts ++ (tokensFrom next rest).map (·.2)

theorem stops_nil : Stops [] :=
  nofun

theorem stops_of_blank {c : Char} (h : Text.isBlank c = true) (cs : List Char) :
    Stops (c :: cs) := by
  rintro d ⟨⟩
  rw [isWordChar, h]
  rfl

namespace Lexes

variable {cs ds : List Char} {ts us : List Token}

theorem nil : Lexes [] [] :=
  fun offset _ _ => ⟨offset, rfl⟩

theorem append (h : Lexes cs ts) (hstops : Stops ds) (h' : Lexes ds us) :
    Lexes (cs ++ ds) (ts ++ us) := by
  intro offset rest hrest
  have hbehind : Stops (ds ++ rest) := by
    cases ds with
    | nil => exact hrest
    | cons d ds => exact hstops
  obtain ⟨middle, hcs⟩ := h offset (ds ++ rest) hbehind
  obtain ⟨next, hds⟩ := h' middle rest hrest
  refine ⟨next, ?_⟩
  rw [List.append_assoc, hcs, hds, List.append_assoc]

theorem blank {c : Char} (hc : Text.isBlank c = true) (h : Lexes cs ts) : Lexes (c :: cs) ts := by
  intro offset rest hrest
  rw [List.cons_append, tokensFrom, if_pos hc]
  exact h _ rest hrest

theorem sign {c : Char} {t : Token} (hc : Text.isBlank c = false)
    (htoken : ∀ rest, token c rest = (t, [])) (h : Lexes cs ts) : Lexes (c :: cs) (t :: ts) := by
  intro offset rest hrest
  obtain ⟨next, hcs⟩ := h (offset + width [c]) rest hrest
  refine ⟨next, ?_⟩
  rw [List.cons_append, tokensFrom, if_neg (by simp [hc]), htoken]
  simp only [List.map_cons, List.length_nil, List.drop_zero, hcs, List.cons_append]

theorem openParen (h : Lexes cs ts) : Lexes ('(' :: cs) (.openParen :: ts) :=
  h.sign (by decide) fun _ => rfl

theorem closeParen (h : Lexes cs ts) : Lexes (')' :: cs) (.closeParen :: ts) :=
  h.sign (by decide) fun _ => rfl

/-- A word takes all its characters, since none that stands behind them belongs to it. -/
theorem word (hne : cs ≠ []) (hcs : ∀ c ∈ cs, isWordChar c = true) :
    Lexes cs [.ofWord (String.ofList cs)] := by
  intro offset rest hrest
  obtain ⟨c, more, rfl⟩ := List.exists_cons_of_ne_nil hne
  obtain ⟨hmore, -⟩ := Text.scan_append (fun d hd => hcs d (List.mem_cons_of_mem c hd)) hrest
  have hfirst := hcs c List.mem_cons_self
  have hblank := ((isWordChar_iff c).mp hfirst).1
  refine ⟨offset + width (c :: more), ?_⟩
  rw [List.cons_append, tokensFrom, if_neg (by simp [hblank]), token_of_wordChar hfirst,
    hmore]
  simp only [List.map_cons, List.drop_left, List.singleton_append]

theorem keyword {text : String} (h : IsKeyword text) : Lexes text.toList [.word text] := by
  have hword := word (mt String.toList_eq_nil_iff.mp h.nonempty) h.wordChars
  rwa [String.ofList_toList, h.ofWord_eq] at hword

end Lexes

/-- The tokens of a text as a whole. -/
theorem Lexes.tokens_eq {cs : List Char} {ts : List Token} (h : Lexes cs ts) :
    (tokens (String.ofList cs)).map (·.2) = ts := by
  obtain ⟨next, hcs⟩ := h 0 [] stops_nil
  rw [List.append_nil, tokensFrom.eq_1, List.map_nil, List.append_nil] at hcs
  rw [tokens, String.toList_ofList, hcs]

end ContextPolicy.Expression
