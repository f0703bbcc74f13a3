import ContextPolicy.Proofs.Expression.Lexing

/-! Where the tokens of a text stand.

Each token has a span: the characters that it is made of, with those before and behind them. What
makes characters a token is said without the scanner (`Lexeme`), and it is what the scanner takes
(`lexeme_of_token`, `Lexeme.token_eq`). The spans of a text's tokens follow one another and hold
exactly the characters that are not white space (`Covers`). One blank character or one token more
in front keeps that (`Covers.blank`, `Covers.cons`), so the scanner finds such spans
(`covers_tokensFrom`); and what is in front can be taken off again (`Covers.of_blank`,
`Covers.tail`), so there are no others (`Covers.eq_tokensFrom`). -/
namespace ContextPolicy.Expression

variable {cs ds front chars behind more rest : List Char} {c : Char} {t : Token}

/-! ### Places in a text -/

theorem width_append (cs ds : List Char) : width (cs ++ ds) = width cs + width ds := by
  induction cs with
  | nil => exact (Nat.zero_add _).symm
  | cons c rest ih => rw [List.cons_append, width, width, ih, Nat.add_assoc]

theorem width_eq (cs : List Char) : width cs = (String.ofList cs).utf8ByteSize := by
  induction cs with
  | nil => rfl
  | cons c rest ih =>
    rw [width, ih, String.ofList_cons, String.utf8ByteSize_append, String.utf8ByteSize_singleton]

theorem width_pos (h : cs ≠ []) : 0 < width cs := by
  cases cs with
  | nil => exact absurd rfl h
  | cons c rest => exact Nat.add_pos_left c.utf8Size_pos _

theorem width_mono (h : cs <+: ds) : width cs ≤ width ds := by
  obtain ⟨more, rfl⟩ := h
  rw [width_append]
  exact Nat.le_add_right _ _

theorem eq_of_initial (h : cs <+: ds) (hle : width ds ≤ width cs) : cs = ds := by
  obtain ⟨more, rfl⟩ := h
  rw [width_append] at hle
  have hmore : more = [] := by
    by_contra hne
    have hpos := width_pos hne
    omega
  rw [hmore, List.append_nil]

/-- Of two pieces from one place on, the wider one goes further. -/
theorem initial_of_width_le (hcs : cs <+: rest) (hds : ds <+: rest) (h : width cs ≤ width ds) :
    cs <+: ds := by
  obtain hinitial | hinitial := List.prefix_or_prefix_of_prefix hcs hds
  · exact hinitial
  · exact eq_of_initial hinitial h ▸ List.prefix_refl ds

/-- Behind characters of a text begins another one. -/
theorem isValid_of_split {text : String} {before after : List Char}
    (h : text.toList = before ++ after) : (⟨width before⟩ : String.Pos.Raw).IsValid text := by
  rw [String.Pos.Raw.isValid_iff_exists_append]
  refine ⟨String.ofList before, String.ofList after, ?_, ?_⟩
  · rw [← String.ofList_append, ← h, String.ofList_toList]
  · rw [width_eq]
    rfl

/-! ### Lexemes -/

/-- The token that a word is: an operator if its lower-case form names one, and else itself. -/
structure Token.IsWord (t : Token) (text : String) : Prop where
  and_iff : t = .and ↔ Text.lowercase text = "and"
  or_iff : t = .or ↔ Text.lowercase text = "or"
  not_iff : t = .not ↔ Text.lowercase text = "not"
  word : Text.lowercase text ∉ ["and", "or", "not"] → t = .word text

theorem Token.isWord_ofWord (text : String) : (ofWord text).IsWord text := by
  simp only [ofWord]
  split_ifs with hand hor hnot
  · constructor <;> simp [hand]
  · constructor <;> simp [hor]
  · constructor <;> simp [hnot]
  · constructor <;> simp [hand, hor, hnot]

theorem Token.IsWord.eq_ofWord {text : String} (h : t.IsWord text) : t = .ofWord text := by
  simp only [ofWord]
  split_ifs with hand hor hnot
  · exact h.and_iff.mpr hand
  · exact h.or_iff.mpr hor
  · exact h.not_iff.mpr hnot
  · exact h.word (by simp [hand, hor, hnot])

/-- Signs that are a token each. -/
def singleSigns : List (Char × Token) :=
  [('(', .openParen), (')', .closeParen), ('!', .not)]

/-- Signs that are a token once or twice. -/
def doubleSigns : List (Char × Token) :=
  [('&', .and), ('|', .or)]

/-- Characters that are a token, in front of others. An operator that stands twice is one token,
and a word ends only where no word goes on. -/
inductive Lexeme : (chars behind : List Char) → Token → Prop
  | single {c : Char} {t : Token} {behind : List Char} (h : (c, t) ∈ singleSigns) :
    Lexeme [c] behind t
  | once {c : Char} {t : Token} {behind : List Char} (h : (c, t) ∈ doubleSigns)
    (hend : behind.head? ≠ some c) : Lexeme [c] behind t
  | twice {c : Char} {t : Token} {behind : List Char} (h : (c, t) ∈ doubleSigns) :
    Lexeme [c, c] behind t
  | word {chars behind : List Char} {t : Token} (hne : chars ≠ [])
    (hchars : ∀ c ∈ chars, Text.isBlank c = false ∧ c ∉ ['(', ')', '!', '&', '|'])
    (hend : ∀ c ∈ behind.head?, Text.isBlank c = true ∨ c ∈ ['(', ')', '!', '&', '|'])
    (ht : t.IsWord (String.ofList chars)) : Lexeme chars behind t

theorem Lexeme.ne_nil (h : Lexeme chars behind t) : chars ≠ [] := by
  cases h with
  | word hne => exact hne
  | _ => exact List.cons_ne_nil _ _

theorem Lexeme.noBlank (h : Lexeme chars behind t) : ∀ c ∈ chars, Text.isBlank c = false := by
  have hsigns : ∀ sign ∈ singleSigns ++ doubleSigns, Text.isBlank sign.1 = false := by decide
  cases h with
  | single h => simpa using hsigns _ (List.mem_append_left _ h)
  | once h _ | twice h => simpa using hsigns _ (List.mem_append_right _ h)
  | word _ hchars => exact fun c hc => (hchars c hc).1

theorem Lexeme.isKeyword {word : String} (h : Lexeme chars behind (.word word)) :
    IsKeyword word := by
  cases h with
  | single h => simp [singleSigns] at h
  | once h _ | twice h => simp [doubleSigns] at h
  | word hne hchars _ ht =>
    obtain ⟨rfl, hlower⟩ := ofWord_eq_word ht.eq_ofWord.symm
    refine .of_wordChars ?_ ?_ hlower
    · rwa [Ne, ← String.toList_eq_nil_iff, String.toList_ofList]
    · rw [String.toList_ofList]
      exact fun c hc => (isWordChar_iff c).mpr (hchars c hc)

/-! ### What the scanner takes -/

theorem token_of_singleSign (h : (c, t) ∈ singleSigns) (rest : List Char) :
    token c rest = (t, []) := by
  simp only [singleSigns, List.mem_cons, List.not_mem_nil, or_false, Prod.mk.injEq] at h
  obtain ⟨rfl, rfl⟩ | ⟨rfl, rfl⟩ | ⟨rfl, rfl⟩ := h <;> rfl

theorem token_of_doubleSign (h : (c, t) ∈ doubleSigns) (rest : List Char) :
    token c rest = (t, if rest.head? = some c then [c] else []) := by
  simp only [doubleSigns, List.mem_cons, List.not_mem_nil, or_false, Prod.mk.injEq] at h
  obtain ⟨rfl, rfl⟩ | ⟨rfl, rfl⟩ := h <;> rfl

theorem exists_of_not_wordChar (hc : Text.isBlank c = false) (hword : isWordChar c = false) :
    ∃ t, (c, t) ∈ singleSigns ∨ (c, t) ∈ doubleSigns := by
  have hsign : c ∈ ['(', ')', '!', '&', '|'] := by
    by_contra hsign
    rw [(isWordChar_iff c).mpr ⟨hc, hsign⟩] at hword
    cases hword
  simp only [List.mem_cons, List.not_mem_nil, or_false] at hsign
  obtain rfl | rfl | rfl | rfl | rfl := hsign <;> simp [singleSigns, doubleSigns]

theorem isWordChar_eq_false_iff :
    isWordChar c = false ↔ Text.isBlank c = true ∨ c ∈ ['(', ')', '!', '&', '|'] := by
  rw [Bool.eq_false_iff, Ne, isWordChar_iff, not_and_or, not_not, Bool.not_eq_false]

/-- What the scanner takes off the front of a text is a lexeme. -/
theorem lexeme_of_token (hc : Text.isBlank c = false) (h : token c rest = (t, more)) :
    ∃ behind, rest = more ++ behind ∧ Lexeme (c :: more) behind t := by
  cases hword : isWordChar c with
  | true =>
    rw [token_of_wordChar hword] at h
    cases h
    refine ⟨rest.dropWhile isWordChar, List.takeWhile_append_dropWhile.symm, ?_⟩
    refine .word (List.cons_ne_nil _ _) ?_ ?_ (Token.isWord_ofWord _)
    · intro d hd
      rw [← isWordChar_iff]
      obtain rfl | hd := List.mem_cons.mp hd
      · exact hword
      · exact List.mem_takeWhile_imp hd
    · intro d hd
      have hhead := List.head?_dropWhile_not isWordChar rest
      rw [Option.mem_def.mp hd] at hhead
      exact isWordChar_eq_false_iff.mp hhead
  | false =>
    obtain ⟨u, hsingle | hdouble⟩ := exists_of_not_wordChar hc hword
    · rw [token_of_singleSign hsingle] at h
      cases h
      exact ⟨rest, rfl, .single hsingle⟩
    · rw [token_of_doubleSign hdouble] at h
      split_ifs at h with hhead
      · cases h
        obtain ⟨behind, rfl⟩ := List.head?_eq_some_iff.mp hhead
        exact ⟨behind, rfl, .twice hdouble⟩
      · cases h
        exact ⟨rest, rfl, .once hdouble hhead⟩

/-- The scanner takes a lexeme that stands at the front. -/
theorem Lexeme.token_eq (h : Lexeme (c :: more) behind t) :
    token c (more ++ behind) = (t, more) := by
  cases h with
  | single h => exact token_of_singleSign h behind
  | once h hend => rw [List.nil_append, token_of_doubleSign h, if_neg hend]
  | twice h => exact (token_of_doubleSign h _).trans (congrArg _ (if_pos rfl))
  | word hne hchars hend ht =>
    have hword := fun d hd => (isWordChar_iff d).mpr (hchars d hd)
    have hscan : (more ++ behind).takeWhile isWordChar = more :=
      (Text.scan_append (fun d hd => hword d (List.mem_cons_of_mem c hd))
        fun d hd => isWordChar_eq_false_iff.mpr (hend d hd)).1
    rw [token_of_wordChar (hword c List.mem_cons_self), hscan, ht.eq_ofWord]

/-! ### Spans -/

/-- A token in a text: its characters, with those before and behind it. -/
structure Span where
  before : List Char
  chars : List Char
  behind : List Char
  token : Token

namespace Span

def whole (s : Span) : List Char :=
  s.before ++ s.chars ++ s.behind

/-- The first byte of the token. -/
def start (s : Span) : Nat :=
  width s.before

/-- The byte behind the token. -/
def stop (s : Span) : Nat :=
  width (s.before ++ s.chars)

def Holds (s : Span) (place : Nat) : Prop :=
  s.start ≤ place ∧ place < s.stop

/-- The token as the scanner gives it. -/
def placed (s : Span) : Nat × Token :=
  (s.start, s.token)

variable {s : Span}

theorem start_lt_stop (h : s.chars ≠ []) : s.start < s.stop := by
  rw [stop, width_append]
  exact Nat.lt_add_of_pos_right (width_pos h)

/-- What stands behind a span is not in it. -/
theorem not_holds_behind (h : s.before ++ s.chars <+: cs) : ¬s.Holds (width cs) :=
  fun hholds => absurd hholds.2 (Nat.not_lt.mpr (width_mono h))

end Span

/-- The spans are those of the tokens in the characters `cs`, which stand behind `front`. -/
structure Covers (front cs : List Char) (spans : List Span) : Prop where
  whole : ∀ s ∈ spans, s.whole = front ++ cs
  lexeme : ∀ s ∈ spans, Lexeme s.chars s.behind s.token
  within : ∀ s ∈ spans, front <+: s.before
  /-- They follow one another, and no two overlap. -/
  apart : spans.Pairwise fun s u => s.stop ≤ u.start
  /-- They hold what is not white space, and nothing else. -/
  holds_iff : ∀ before c after, cs = before ++ c :: after →
    (Text.isBlank c = false ↔ ∃ s ∈ spans, s.Holds (width (front ++ before)))

/-- A character of two pieces is in the first one or in the second. -/
theorem split_of_append {before after : List Char} (h : chars ++ behind = before ++ c :: after) :
    (∃ more, chars = before ++ c :: more) ∨
      ∃ more, before = chars ++ more ∧ behind = more ++ c :: after := by
  obtain ⟨more, rfl, rfl⟩ | ⟨more, rfl, hmore⟩ := List.append_eq_append_iff.mp h
  · exact .inr ⟨more, rfl, rfl⟩
  · cases more with
    | nil => exact .inr ⟨[], by rw [List.append_nil, List.append_nil], hmore.symm⟩
    | cons d more =>
      cases hmore
      exact .inl ⟨more, rfl⟩

namespace Covers
variable {s : Span} {spans : List Span}

theorem nil (front : List Char) : Covers front [] [] where
  whole := nofun
  lexeme := nofun
  within := nofun
  apart := .nil
  holds_iff before c after h := by cases before <;> cases h

theorem blank (hc : Text.isBlank c = true) (h : Covers (front ++ [c]) cs spans) :
    Covers front (c :: cs) spans where
  whole s hs := by rw [h.whole s hs, List.append_assoc, List.singleton_append]
  lexeme := h.lexeme
  within s hs := (List.prefix_append front [c]).trans (h.within s hs)
  apart := h.apart
  holds_iff before d after heq := by
    cases before with
    | nil =>
      cases heq
      refine iff_of_false (by simp [hc]) ?_
      rintro ⟨s, hs, hstart, -⟩
      have hle := width_mono (h.within s hs)
      have hpos := width_pos (List.cons_ne_nil c [])
      rw [List.append_nil] at hstart
      rw [width_append] at hle
      exact absurd (hle.trans hstart) (by omega)
    | cons _ before =>
      cases heq
      have hiff := h.holds_iff before d after rfl
      rwa [List.append_assoc, List.singleton_append] at hiff

theorem cons (hlexeme : Lexeme chars behind t) (h : Covers (front ++ chars) behind spans) :
    Covers front (chars ++ behind) (⟨front, chars, behind, t⟩ :: spans) where
  whole := by
    refine List.forall_mem_cons.mpr ⟨List.append_assoc _ _ _, fun s hs => ?_⟩
    rw [h.whole s hs, List.append_assoc]
  lexeme := List.forall_mem_cons.mpr ⟨hlexeme, h.lexeme⟩
  within := List.forall_mem_cons.mpr ⟨List.prefix_refl front,
    fun s hs => (List.prefix_append front chars).trans (h.within s hs)⟩
  apart := .cons (fun s hs => width_mono (h.within s hs)) h.apart
  holds_iff before c after heq := by
    rw [List.exists_mem_cons_iff]
    obtain ⟨more, rfl⟩ | ⟨more, rfl, rfl⟩ := split_of_append heq
    · refine iff_of_true (hlexeme.noBlank c (by simp)) (.inl ⟨?_, ?_⟩)
      · show width front ≤ width (front ++ before)
        rw [width_append]
        exact Nat.le_add_right _ _
      · show width (front ++ before) < width (front ++ (before ++ c :: more))
        have hpos := width_pos (List.cons_ne_nil c more)
        rw [← List.append_assoc, width_append (front ++ before)]
        omega
    · rw [← List.append_assoc, or_iff_right (Span.not_holds_behind (List.prefix_append _ _))]
      exact h.holds_iff more c after rfl

/-- Behind white space the spans are the same. -/
theorem of_blank (hc : Text.isBlank c = true) (h : Covers front (c :: cs) spans) :
    Covers (front ++ [c]) cs spans where
  whole s hs := by rw [h.whole s hs, List.append_assoc, List.singleton_append]
  lexeme := h.lexeme
  within s hs := by
    obtain ⟨gap, hgap⟩ := h.within s hs
    have hwhole := h.whole s hs
    rw [Span.whole, ← hgap, List.append_assoc, List.append_assoc] at hwhole
    cases gap with
    | nil =>
      -- The token would begin with white space.
      obtain ⟨d, more, hchars⟩ := List.exists_cons_of_ne_nil (h.lexeme s hs).ne_nil
      rw [hchars] at hwhole
      cases List.append_cancel_left hwhole
      have hd := (h.lexeme s hs).noBlank c (by rw [hchars]; exact List.mem_cons_self)
      rw [hc] at hd
      cases hd
    | cons d gap =>
      cases List.append_cancel_left hwhole
      exact ⟨gap, by rw [← hgap, List.append_assoc, List.singleton_append]⟩
  apart := h.apart
  holds_iff before d after heq := by
    rw [List.append_assoc, List.singleton_append]
    exact h.holds_iff (c :: before) d after (congrArg _ heq)

/-- A character that is not white space begins the first token. -/
theorem head (hc : Text.isBlank c = false) (h : Covers front (c :: cs) spans) :
    ∃ more behind t others, spans = ⟨front, c :: more, behind, t⟩ :: others ∧
      cs = more ++ behind := by
  obtain ⟨s, hs, hstart, -⟩ := (h.holds_iff [] c cs rfl).mp hc
  rw [List.append_nil] at hstart
  obtain ⟨⟨before, chars, behind, t⟩, others, rfl⟩ :=
    List.exists_cons_of_ne_nil (List.ne_nil_of_mem hs)
  have hlexeme := h.lexeme _ List.mem_cons_self
  have hle : width before ≤ width front := by
    obtain rfl | hs := List.mem_cons.mp hs
    · exact hstart
    · have hstop := List.rel_of_pairwise_cons h.apart hs
      exact (Span.start_lt_stop hlexeme.ne_nil).le.trans (hstop.trans hstart)
  obtain rfl := eq_of_initial (h.within _ List.mem_cons_self) hle
  obtain ⟨d, more, rfl⟩ := List.exists_cons_of_ne_nil hlexeme.ne_nil
  have hwhole := h.whole _ List.mem_cons_self
  rw [Span.whole, List.append_assoc] at hwhole
  obtain ⟨rfl, rfl⟩ := List.cons.inj (List.append_cancel_left hwhole)
  exact ⟨more, behind, t, others, rfl, rfl⟩

/-- Behind a token the other spans are the same. -/
theorem tail (h : Covers front (chars ++ behind) (⟨front, chars, behind, t⟩ :: spans)) :
    Covers (front ++ chars) behind spans where
  whole s hs := by rw [h.whole s (List.mem_cons_of_mem _ hs), List.append_assoc]
  lexeme s hs := h.lexeme s (List.mem_cons_of_mem _ hs)
  within s hs := by
    refine initial_of_width_le (List.prefix_append _ behind) ?_
      (List.rel_of_pairwise_cons h.apart hs)
    rw [List.append_assoc, ← h.whole s (List.mem_cons_of_mem _ hs), Span.whole,
      List.append_assoc]
    exact List.prefix_append _ _
  apart := h.apart.tail
  holds_iff before c after heq := by
    have hiff := h.holds_iff (chars ++ before) c after (by rw [heq, List.append_assoc])
    rwa [← List.append_assoc, List.exists_mem_cons_iff,
      or_iff_right (Span.not_holds_behind (List.prefix_append _ _))] at hiff

theorem ascending (h : Covers front cs spans) :
    spans.Pairwise fun s u => s.start < u.start := by
  refine h.apart.imp_of_mem fun {s u} hs _ hstop => ?_
  exact (Span.start_lt_stop (h.lexeme s hs).ne_nil).trans_le hstop

theorem eq_nil (h : Covers front [] spans) : spans = [] := by
  refine List.eq_nil_iff_forall_not_mem.mpr fun s hs => ?_
  have hlength := congrArg List.length (h.whole s hs)
  have hfront := (h.within s hs).length_le
  have hchars := List.length_pos_of_ne_nil (h.lexeme s hs).ne_nil
  simp only [Span.whole, List.length_append, List.length_nil] at hlength
  omega

/-- No other tokens have spans that do. -/
theorem eq_tokensFrom (h : Covers front cs spans) :
    spans.map Span.placed = tokensFrom (width front) cs := by
  induction hoffset : width front, cs using tokensFrom.induct generalizing front spans with
  | case1 offset => rw [h.eq_nil, tokensFrom, List.map_nil]
  | case2 offset c rest hblank ih =>
    rw [tokensFrom, if_pos hblank]
    exact ih (h.of_blank hblank) (by rw [width_append, hoffset]; rfl)
  | case3 offset c rest hblank t more htoken ih =>
    obtain ⟨taken, behind, u, others, rfl, rfl⟩ := h.head (Bool.eq_false_iff.mpr hblank)
    cases (h.lexeme _ List.mem_cons_self).token_eq.symm.trans htoken
    have htail : Covers (front ++ c :: more) behind others := h.tail
    rw [List.drop_left] at ih
    rw [tokensFrom, if_neg hblank, htoken]
    simp only [List.drop_left, List.map_cons, Span.placed, Span.start, hoffset]
    rw [← ih htail (by rw [width_append, hoffset])]

end Covers

/-- The tokens that the scanner finds are those of spans. -/
theorem covers_tokensFrom (front cs : List Char) :
    ∃ spans, Covers front cs spans ∧ tokensFrom (width front) cs = spans.map Span.placed := by
  induction hoffset : width front, cs using tokensFrom.induct generalizing front with
  | case1 offset => exact ⟨[], .nil front, by rw [tokensFrom, List.map_nil]⟩
  | case2 offset c rest hblank ih =>
    obtain ⟨spans, hcovers, htokens⟩ := ih (front ++ [c]) (by rw [width_append, hoffset]; rfl)
    exact ⟨spans, hcovers.blank hblank, by rw [tokensFrom, if_pos hblank, htokens]⟩
  | case3 offset c rest hblank t more htoken ih =>
    obtain ⟨behind, rfl, hlexeme⟩ := lexeme_of_token (Bool.eq_false_iff.mpr hblank) htoken
    obtain ⟨spans, hcovers, htokens⟩ := ih (front ++ c :: more) (by rw [width_append, hoffset])
    rw [List.drop_left] at hcovers htokens
    refine ⟨_, hcovers.cons hlexeme, ?_⟩
    rw [tokensFrom, if_neg hblank, htoken]
    simp only [List.drop_left, htokens, List.map_cons, Span.placed, Span.start, hoffset]

/-! ### The tokens of a text -/

namespace Span
variable {text : String} {s : Span}

theorem isValid_start (h : s.whole = text.toList) : (⟨s.start⟩ : String.Pos.Raw).IsValid text :=
  isValid_of_split (h.symm.trans (List.append_assoc _ _ _))

theorem isValid_stop (h : s.whole = text.toList) : (⟨s.stop⟩ : String.Pos.Raw).IsValid text :=
  isValid_of_split h.symm

/-- The bytes of a span are those of its characters. -/
theorem extract_eq (h : s.whole = text.toList) :
    text.toUTF8.extract s.start s.stop = (String.ofList s.chars).toUTF8 := by
  have htext : text = String.ofList (s.before ++ s.chars) ++ String.ofList s.behind := by
    rw [← String.ofList_append, ← whole, h, String.ofList_toList]
  have hstop : s.stop = (String.ofList (s.before ++ s.chars)).toByteArray.size := width_eq _
  have hstart : s.start = (String.ofList s.before).toByteArray.size := width_eq _
  rw [String.toUTF8_eq_toByteArray, String.toUTF8_eq_toByteArray, htext, String.toByteArray_append,
    hstop, ByteArray.extract_append_size_left, String.ofList_append, String.toByteArray_append]
  exact ByteArray.extract_append_eq_right hstart ByteArray.size_append

end Span

theorem exists_covers (text : String) :
    ∃ spans, Covers [] text.toList spans ∧ tokens text = spans.map Span.placed :=
  covers_tokensFrom [] text.toList

theorem exists_span_of_mem {text : String} {n : Nat} (h : (n, t) ∈ tokens text) :
    ∃ s : Span, s.whole = text.toList ∧ s.start = n ∧ Lexeme s.chars s.behind t := by
  obtain ⟨spans, hcovers, htokens⟩ := exists_covers text
  rw [htokens] at h
  obtain ⟨s, hs, heq⟩ := List.mem_map.mp h
  cases heq
  exact ⟨s, hcovers.whole s hs, rfl, hcovers.lexeme s hs⟩

/-- A token is where its characters begin. -/
theorem mem_tokens {text : String} {n : Nat} (h : (n, t) ∈ tokens text) :
    ∃ before c rest, text.toList = before ++ c :: rest ∧ n = width before ∧
      (token c rest).1 = t := by
  obtain ⟨⟨before, chars, behind, u⟩, hwhole, rfl, hlexeme⟩ := exists_span_of_mem h
  obtain ⟨c, more, rfl⟩ := List.exists_cons_of_ne_nil hlexeme.ne_nil
  refine ⟨before, c, more ++ behind, ?_, rfl, by rw [hlexeme.token_eq]⟩
  rw [← hwhole, Span.whole, List.append_assoc]
  rfl

theorem isValid_of_mem_tokens {text : String} {n : Nat} (h : (n, t) ∈ tokens text) :
    (⟨n⟩ : String.Pos.Raw).IsValid text := by
  obtain ⟨s, hwhole, rfl, -⟩ := exists_span_of_mem h
  exact Span.isValid_start hwhole

/-- Whatever the text, its words are keywords. -/
theorem isKeyword_of_mem_tokens {text word : String}
    (h : .word word ∈ (tokens text).map (·.2)) : IsKeyword word := by
  obtain ⟨⟨n, _⟩, hmem, rfl⟩ := List.mem_map.mp h
  obtain ⟨s, -, -, hlexeme⟩ := exists_span_of_mem hmem
  exact hlexeme.isKeyword

/-- The tokens of a text are those of spans, one behind the other, that hold what is not white
space, and the text has no other tokens with such spans. Each span begins and ends where a
character does, and its bytes are those of its characters. -/
theorem tokens_cover (text : String) :
    (∃ spans, Covers [] text.toList spans ∧ tokens text = spans.map Span.placed ∧
      ∀ s ∈ spans, (⟨s.start⟩ : String.Pos.Raw).IsValid text ∧
        (⟨s.stop⟩ : String.Pos.Raw).IsValid text ∧
        text.toUTF8.extract s.start s.stop = (String.ofList s.chars).toUTF8) ∧
    ((tokens text).map (·.1)).Pairwise (· < ·) ∧
    ∀ spans, Covers [] text.toList spans → spans.map Span.placed = tokens text := by
  obtain ⟨spans, hcovers, hplaced⟩ := exists_covers text
  refine ⟨⟨spans, hcovers, hplaced, fun s hs => ?_⟩, ?_, fun others h => h.eq_tokensFrom⟩
  · have hwhole := hcovers.whole s hs
    exact ⟨Span.isValid_start hwhole, Span.isValid_stop hwhole, Span.extract_eq hwhole⟩
  · rw [hplaced, List.map_map, List.pairwise_map]
    exact hcovers.ascending

end ContextPolicy.Expression
