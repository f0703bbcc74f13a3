import ContextPolicy.Proofs.Turtle.Grammar

/-! The tokens of terminals, wherever these stand.

Each scanner of the lexer takes what the grammar calls the terminal, and stops there, given
a text behind it that does not go on with the terminal. `Lexes P cs ts` says it of a piece
of text: in front of any text with `P` the characters give the tokens, and what is behind
them is read on its own. -/
namespace ContextPolicy.Turtle

/-! ### Characters -/

/-- White space, or nothing. -/
def Separated (cs : List Char) : Prop :=
  ∀ c ∈ cs.head?, isBlank c = true

theorem isBlank_iff (c : Char) :
    isBlank c = true ↔ c = ' ' ∨ c = '\t' ∨ c = '\n' ∨ c = '\r' := by
  simp only [isBlank, Bool.or_eq_true, decide_eq_true_eq, or_assoc]

theorem isNameChar_of_isBlank {c : Char} (h : isBlank c = true) :
    isNameChar c = false ∧ c ≠ '.' := by
  obtain rfl | rfl | rfl | rfl := (isBlank_iff c).mp h <;> decide

theorem isAlphanum_of_isBlank {c : Char} (h : isBlank c = true) :
    c.isAlphanum = false ∧ c ≠ '-' := by
  obtain rfl | rfl | rfl | rfl := (isBlank_iff c).mp h <;> decide

theorem isDigit_of_isBlank {c : Char} (h : isBlank c = true) : c.isDigit = false := by
  obtain rfl | rfl | rfl | rfl := (isBlank_iff c).mp h <;> decide

/-- No sign of Turtle begins a prefix. -/
theorem toNat_of_isPrefixStart {c : Char} (h : isPrefixStart c = true) : 0x41 ≤ c.toNat := by
  obtain ⟨range, hrange, hle, -⟩ := (Text.Ranges.covers_iff _ c).mp h
  have hfirst : ∀ r ∈ Text.nameStartRanges, 0x41 ≤ r.1 := by decide
  exact Nat.le_trans (hfirst range hrange) hle

theorem ne_of_isPrefixStart {c d : Char} (h : isPrefixStart c = true)
    (hd : isPrefixStart d = false) : c ≠ d := by
  rintro rfl
  rw [h] at hd
  cases hd

theorem isBlank_of_isPrefixStart {c : Char} (h : isPrefixStart c = true) : isBlank c = false := by
  refine Bool.eq_false_iff.mpr fun hblank => ?_
  obtain rfl | rfl | rfl | rfl := (isBlank_iff c).mp hblank <;> exact absurd h (by decide)

/-! ### Scanners -/

theorem nameChars_append {cs rest : List Char}
    (hcs : ∀ c ∈ cs, isNameChar c = true ∨ c = '.') (hlast : cs.getLast? ≠ some '.')
    (hrest : ∀ c ∈ rest.head?, isNameChar c = false ∧ c ≠ '.') :
    nameChars (cs ++ rest) = (cs, rest) := by
  induction cs with
  | nil =>
    cases rest with
    | nil => rfl
    | cons c rest =>
      obtain ⟨hname, hdot⟩ := hrest c rfl
      simp [nameChars, hname, hdot]
  | cons c cs ih =>
    have hmore := ih (fun d hd => hcs d (List.mem_cons_of_mem c hd)) fun hdot =>
      hlast (by rw [List.getLast?_cons, hdot]; rfl)
    rw [List.cons_append, nameChars, hmore]
    cases hname : isNameChar c with
    | true => rfl
    | false =>
      have hdot : c = '.' := by simpa [hname] using hcs c List.mem_cons_self
      subst hdot
      -- The dot is not the last, so there is more of the name to make it count.
      match cs, hlast with
      | [], hlast => exact absurd rfl hlast
      | d :: cs, _ => rfl

theorem IsName.nameChars_append {start : Char → Bool} {c : Char} {cs rest : List Char}
    (h : IsName start (c :: cs)) (hrest : ∀ d ∈ rest.head?, isNameChar d = false ∧ d ≠ '.') :
    nameChars (cs ++ rest) = (cs, rest) :=
  Turtle.nameChars_append h.2.1 h.2.2 hrest

/-- Letters, and digits behind a hyphen, are taken whatever follows. -/
theorem tagChars_append (primary : Bool) {cs : List Char} (rest : List Char)
    (h : ∀ c ∈ cs, (c.isAlpha || (!primary && c.isDigit)) = true) :
    tagChars primary (cs ++ rest) =
      (cs ++ (tagChars primary rest).1, (tagChars primary rest).2) := by
  induction cs with
  | nil => rfl
  | cons c cs ih =>
    rw [List.cons_append, tagChars, if_pos (h c List.mem_cons_self),
      ih fun d hd => h d (List.mem_cons_of_mem c hd)]
    rfl

theorem tagChars_of_separated (primary : Bool) {rest : List Char} (h : Separated rest) :
    tagChars primary rest = ([], rest) := by
  cases rest with
  | nil => rfl
  | cons c rest =>
    obtain ⟨halphanum, hhyphen⟩ := isAlphanum_of_isBlank (h c rfl)
    simp only [Char.isAlphanum, Bool.or_eq_false_iff] at halphanum
    simp [tagChars, halphanum, hhyphen]

theorem tagChars_parts (primary : Bool) {parts : List (List Char)} {rest : List Char}
    (hparts : ∀ part ∈ parts, part ≠ [] ∧ ∀ c ∈ part, c.isAlphanum = true)
    (hrest : Separated rest) :
    tagChars primary (parts.flatMap ('-' :: ·) ++ rest) = (parts.flatMap ('-' :: ·), rest) := by
  induction parts generalizing primary with
  | nil => exact tagChars_of_separated primary hrest
  | cons part parts ih =>
    obtain ⟨hne, hchars⟩ := hparts part List.mem_cons_self
    -- The part's first character is what lets its hyphen count.
    obtain ⟨c, part, rfl⟩ := List.exists_cons_of_ne_nil hne
    have hfirst := hchars c List.mem_cons_self
    have hpart : ∀ d ∈ c :: part, (d.isAlpha || (!false && d.isDigit)) = true := hchars
    have hbehind : tagChars false (c :: part ++ (parts.flatMap ('-' :: ·) ++ rest)) =
        (c :: part ++ parts.flatMap ('-' :: ·), rest) := by
      rw [tagChars_append false _ hpart,
        ih false fun p hp => hparts p (List.mem_cons_of_mem _ hp)]
    rw [List.flatMap_cons, List.append_assoc, List.cons_append, tagChars, if_neg (by simp),
      if_pos (by simpa using hfirst), hbehind]
    rfl

theorem IsTag.tagToken {tag rest : List Char} (h : IsTag tag) (hrest : Separated rest) :
    tagToken (tag ++ rest) = some (.tag tag, rest) := by
  obtain ⟨first, parts, rfl, hne, hfirst, hparts⟩ := h
  obtain ⟨c, first, rfl⟩ := List.exists_cons_of_ne_nil hne
  have hletter : ((c :: first ++ parts.flatMap ('-' :: ·) ++ rest).head?.any Char.isAlpha) =
      true := hfirst c List.mem_cons_self
  have hchars : ∀ d ∈ c :: first, (d.isAlpha || (!true && d.isDigit)) = true := by
    simpa using hfirst
  rw [Turtle.tagToken, if_pos hletter, List.append_assoc, tagChars_append true _ hchars,
    tagChars_parts true hparts hrest]

theorem IsLabel.labelToken {label rest : List Char} (h : IsLabel label)
    (hrest : Separated rest) : labelToken (label ++ rest) = some (.label label, rest) := by
  match label, h with
  | c :: cs, h =>
    rw [List.cons_append, Turtle.labelToken, if_pos h.1,
      h.nameChars_append fun d hd => isNameChar_of_isBlank (hrest d hd)]

theorem IsReference.reference {text : List Char} (h : IsReference text) (rest : List Char) :
    reference (text ++ '>' :: rest) = some (text, rest) := by
  induction text with
  | nil =>
    rw [List.nil_append, Turtle.reference]
  | cons c text ih =>
    have hc := h c List.mem_cons_self
    have hrest := ih fun d hd => h d (List.mem_cons_of_mem c hd)
    have hclose : c ≠ '>' := by rintro rfl; cases hc
    have hescape : c ≠ '\\' := by rintro rfl; cases hc
    rw [List.cons_append, Turtle.reference]
    · simp only [hc, Bool.false_eq_true, if_false, hrest, Option.map_some, keep]
    · exact fun heq => hclose heq
    · rintro d left heq -
      exact hescape heq

/-! ### Quotes -/

theorem Quotes.marks_eq_cons (q : Quotes) :
    q.marks = q.mark :: List.replicate (if q.long then 2 else 0) q.mark := by
  obtain ⟨mark, long⟩ := q
  cases long <;> rfl

theorem Quotes.close?_marks (q : Quotes) (rest : List Char) :
    q.close? (q.marks ++ rest) = some rest := by
  have hprefix : q.marks.isPrefixOf (q.marks ++ rest) = true :=
    List.isPrefixOf_iff_prefix.mpr (List.prefix_append q.marks rest)
  rw [close?, if_pos hprefix, List.drop_left]

theorem Quotes.close?_cons {q : Quotes} {c : Char} (h : c ≠ q.mark) (rest : List Char) :
    q.close? (c :: rest) = none := by
  rw [close?, marks_eq_cons, List.isPrefixOf, beq_false_of_ne h.symm]
  rfl

theorem escaped_of_mem {letter c : Char} (h : (letter, c) ∈ letterEscapes) (rest : List Char) :
    escaped letter rest = some (c, rest) := by
  simp only [letterEscapes, List.mem_cons, Prod.mk.injEq, List.not_mem_nil, or_false] at h
  obtain ⟨rfl, rfl⟩ | ⟨rfl, rfl⟩ | ⟨rfl, rfl⟩ | ⟨rfl, rfl⟩ | ⟨rfl, rfl⟩ | ⟨rfl, rfl⟩ |
    ⟨rfl, rfl⟩ | ⟨rfl, rfl⟩ := h <;> rfl

theorem quotedValue_close {q : Quotes} {cs rest : List Char} (h : q.close? cs = some rest) :
    quotedValue q cs = some ([], rest) := by
  rw [quotedValue.eq_def, h]

theorem quotedValue_char {q : Quotes} {c : Char} {cs : List Char}
    (hclose : q.close? (c :: cs) = none) (hescape : c ≠ '\\')
    (hend : q.long = true ∨ c ≠ '\n' ∧ c ≠ '\r') :
    quotedValue q (c :: cs) = (quotedValue q cs).map (keep c) := by
  have hplain : (c = '\\' || (!q.long && (c = '\n' || c = '\r'))) = false := by
    cases hlong : q.long <;> simp_all
  rw [quotedValue, hclose]
  · simp only [hplain, Bool.false_eq_true, if_false]
  · exact fun d rest heq _ => hescape heq

theorem quotedValue_escape {q : Quotes} {letter c : Char} {cs : List Char}
    (hclose : q.close? ('\\' :: letter :: cs) = none)
    (hletter : (letter, c) ∈ letterEscapes) :
    quotedValue q ('\\' :: letter :: cs) = (quotedValue q cs).map (keep c) := by
  have hescaped := escaped_of_mem hletter cs
  rw [quotedValue]
  simp only [hclose]
  split
  · rename_i hnone
    rw [hescaped] at hnone
    cases hnone
  · rename_i d left hsome
    rw [hescaped] at hsome
    obtain ⟨rfl, rfl⟩ := Prod.mk.inj (Option.some.inj hsome)
    rfl

/-- Behind its opening quotes a value is read up to its closing ones. -/
theorem Quoted.quotedValue {long : Bool} {cs value : List Char} (h : Quoted long cs value)
    (rest : List Char) :
    quotedValue ⟨'"', long⟩ (cs ++ (Quotes.marks ⟨'"', long⟩ ++ rest)) = some (value, rest) := by
  induction h with
  | nil => exact quotedValue_close (Quotes.close?_marks _ rest)
  | char hmark hescape hend h ih =>
    rw [List.cons_append, quotedValue_char (Quotes.close?_cons hmark _) hescape hend, ih]
    rfl
  | escape hletter h ih =>
    have hmark : '\\' ≠ Quotes.mark ⟨'"', long⟩ := by
      show '\\' ≠ '"'
      decide
    rw [List.cons_append, List.cons_append,
      quotedValue_escape (Quotes.close?_cons hmark _) hletter, ih]
    rfl

/-- A short value is not taken for a long one. -/
theorem Quoted.openQuotes {cs value rest : List Char} (h : Quoted false cs value)
    (hrest : rest.head? ≠ some '"') :
    openQuotes '"' (cs ++ '"' :: rest) = (⟨'"', false⟩, cs ++ '"' :: rest) := by
  have hopen : ['"', '"'].isPrefixOf (cs ++ '"' :: rest) = false := by
    cases h with
    | nil =>
      cases rest with
      | nil => rfl
      | cons c rest =>
        have hc : c ≠ '"' := fun heq => hrest (congrArg some heq)
        simp [List.isPrefixOf, hc.symm]
    | char hmark hescape hend h => simp [List.isPrefixOf, hmark.symm]
    | escape hletter h => simp [List.isPrefixOf]
  rw [Turtle.openQuotes, hopen]
  rfl

/-- Not a quotation mark. -/
def Unquoted (cs : List Char) : Prop :=
  cs.head? ≠ some '"'

theorem Separated.unquoted {cs : List Char} (h : Separated cs) : Unquoted cs := by
  intro hmark
  have hblank := h '"' hmark
  cases hblank

theorem StringText.quotedToken {cs value : List Char} (h : StringText cs value) :
    ∃ more, cs = '"' :: more ∧
      ∀ rest, Unquoted rest → quotedToken '"' (more ++ rest) = some (.quoted value, rest) := by
  cases h with
  | @short cs _ h =>
    refine ⟨cs ++ ['"'], rfl, fun rest hrest => ?_⟩
    have hmarks : cs ++ '"' :: rest = cs ++ (Quotes.marks ⟨'"', false⟩ ++ rest) := rfl
    rw [List.append_assoc, List.singleton_append, Turtle.quotedToken, h.openQuotes hrest]
    simp only [hmarks, h.quotedValue rest, Option.map_some]
  | @long cs _ h =>
    refine ⟨'"' :: '"' :: cs ++ ['"', '"', '"'], rfl, fun rest _ => ?_⟩
    have hmarks : ['"', '"', '"'] ++ rest = Quotes.marks ⟨'"', true⟩ ++ rest := rfl
    have hopen : openQuotes '"' ('"' :: '"' :: (cs ++ (['"', '"', '"'] ++ rest))) =
        (⟨'"', true⟩, cs ++ (['"', '"', '"'] ++ rest)) := rfl
    show Turtle.quotedToken '"' ('"' :: '"' :: (cs ++ ['"', '"', '"'] ++ rest)) = _
    rw [List.append_assoc, Turtle.quotedToken, hopen]
    simp only [hmarks, h.quotedValue rest, Option.map_some]

/-! ### Signs and names -/

theorem numeral_eq_none {c : Char} {rest : List Char} (hsign : c ≠ '+' ∧ c ≠ '-')
    (hdigit : c.isDigit = false) (hdot : c ≠ '.' ∨ ∀ d ∈ rest.head?, d.isDigit = false) :
    numeral (c :: rest) = none := by
  have hnosign : numberSign (c :: rest) = ([], c :: rest) := by
    unfold numberSign
    split <;> simp_all
  have hwhole : digitChars (c :: rest) = ([], c :: rest) := by
    simp [digitChars, hdigit]
  have hfraction : fractionChars [] (c :: rest) = none := by
    unfold fractionChars
    split
    · rename_i rest' heq
      obtain ⟨rfl, rfl⟩ := List.cons.inj heq
      have hdigits : (digitChars rest).1 = [] := by
        cases rest with
        | nil => rfl
        | cons d rest => simp_all [digitChars]
      simp [hdigits]
    · rfl
  simp [numeral, hnosign, hwhole, hfraction]

theorem localPart_of_separated {rest : List Char} (h : Separated rest) :
    localPart rest = ([], rest) := by
  cases rest with
  | nil => rfl
  | cons c rest =>
    obtain rfl | rfl | rfl | rfl := (isBlank_iff c).mp (h c rfl) <;> rfl

theorem next_of_isPrefixStart {c : Char} (h : isPrefixStart c = true) (rest : List Char) :
    next c rest = plainToken c rest := by
  unfold next
  split <;> first | rfl | (exact absurd h (by decide))

theorem numeral_of_isPrefixStart {c : Char} (h : isPrefixStart c = true) (rest : List Char) :
    numeral (c :: rest) = none := by
  have hle := toNat_of_isPrefixStart h
  have hdigit : c.isDigit = false := by
    simp only [Char.isDigit, Bool.and_eq_false_iff, decide_eq_false_iff_not]
    right
    rw [UInt32.le_iff_toNat_le]
    show ¬c.toNat ≤ 57
    omega
  have hne : ∀ d, isPrefixStart d = false → c ≠ d := fun d => ne_of_isPrefixStart h
  exact numeral_eq_none ⟨hne '+' (by decide), hne '-' (by decide)⟩ hdigit
    (.inl (hne '.' (by decide)))

theorem IsPrefixName.prefixChars {name : List Char} (h : IsPrefixName name) (rest : List Char) :
    prefixChars (name ++ ':' :: rest) = (name, ':' :: rest) := by
  match name, h with
  | c :: cs, h =>
    obtain ⟨hstart, hchars, hlast⟩ := h
    have hname : isNameChar c = true := by
      simp [isNameChar, isLabelStart, hstart]
    rw [List.cons_append, Turtle.prefixChars, if_pos hstart, ← List.cons_append]
    refine nameChars_append ?_ ?_ ?_
    · intro d hd
      obtain rfl | hd := List.mem_cons.mp hd
      · exact .inl hname
      · exact hchars d hd
    · rw [List.getLast?_cons]
      cases hcs : cs.getLast? with
      | none =>
        rintro ⟨⟩
        exact absurd hstart (by decide)
      | some d =>
        rintro ⟨⟩
        exact hlast hcs
    · rintro d ⟨⟩
      decide

theorem nameToken_of_prefixChars {cs name rest : List Char}
    (h : prefixChars cs = (name, ':' :: rest)) (hrest : Separated rest) :
    nameToken cs = some (.name name [], rest) := by
  rw [nameToken, h]
  simp only [localPart_of_separated hrest]

/-! ### Tokens -/

theorem tokens_eq (cs : List Char) : tokens cs =
    match skip false cs with
    | [] => some []
    | c :: rest => (next c rest).bind fun (t, left) => (tokens left).map (t :: ·) := by
  rw [tokens]
  split <;> rename_i hskip
  · simp only [hskip]
  · simp only [hskip]
    split <;> rename_i hnext
    · simp only [hnext, Option.bind_none]
    · simp only [hnext, Option.bind_some]

theorem tokens_blank {c : Char} (h : isBlank c = true) (cs : List Char) :
    tokens (c :: cs) = tokens cs := by
  have hskip : skip false (c :: cs) = skip false cs := by
    rw [skip, if_neg Bool.false_ne_true, if_pos h]
  rw [tokens_eq, hskip, ← tokens_eq]

theorem tokens_gap {gap : List Char} (h : ∀ c ∈ gap, isBlank c = true) (rest : List Char) :
    tokens (gap ++ rest) = tokens rest := by
  induction gap with
  | nil => rfl
  | cons c gap ih =>
    rw [List.cons_append, tokens_blank (h c List.mem_cons_self)]
    exact ih fun d hd => h d (List.mem_cons_of_mem c hd)

/-- In front of any text with a property a piece of text gives these tokens. -/
def Lexes (P : List Char → Prop) (cs : List Char) (ts : List Token) : Prop :=
  ∀ rest, P rest → tokens (cs ++ rest) = (tokens rest).map (ts ++ ·)

namespace Lexes

variable {P Q : List Char → Prop} {cs ds : List Char} {ts us : List Token}

theorem weaken (h : Lexes P cs ts) (hP : ∀ rest, Q rest → P rest) : Lexes Q cs ts :=
  fun rest hrest => h rest (hP rest hrest)

theorem append (h : Lexes P cs ts) (h' : Lexes Q ds us) (hP : ∀ rest, Q rest → P (ds ++ rest)) :
    Lexes Q (cs ++ ds) (ts ++ us) := by
  intro rest hrest
  rw [List.append_assoc, h _ (hP rest hrest), h' rest hrest, Option.map_map]
  congr 1
  funext vs
  exact (List.append_assoc ts us vs).symm

theorem of_next {c : Char} {t : Token} (hblank : isBlank c = false) (hcomment : c ≠ '#')
    (h : ∀ rest, P rest → next c (cs ++ rest) = some (t, rest)) : Lexes P (c :: cs) [t] := by
  intro rest hrest
  have hskip : skip false (c :: cs ++ rest) = c :: (cs ++ rest) := by
    simp [skip, hblank, hcomment]
  rw [tokens_eq, hskip]
  simp only [h rest hrest, Option.bind_some]
  rfl

theorem gap {cs : List Char} (h : IsGap cs) : Lexes (fun _ => True) cs [] := by
  intro rest _
  rw [tokens_gap h.2]
  simp

/-- White space between pieces keeps them apart. -/
theorem behind_gap {between : List Char} (h : Lexes Separated cs ts) (hgap : IsGap between)
    (h' : Lexes Q ds us) : Lexes Q (cs ++ between ++ ds) (ts ++ us) := by
  have hseparated : ∀ rest, Separated (between ++ rest) := by
    intro rest
    obtain ⟨hne, hblank⟩ := hgap
    obtain ⟨c, between, rfl⟩ := List.exists_cons_of_ne_nil hne
    rintro d ⟨⟩
    exact hblank c List.mem_cons_self
  have hfront := h.append (gap hgap) fun rest _ => hseparated rest
  rw [List.append_nil] at hfront
  exact hfront.append h' fun _ _ => trivial

theorem reference {text : List Char} (h : IsReference text) :
    Lexes P ('<' :: text ++ ['>']) [.reference text] := by
  refine of_next (by decide) (by decide) fun rest _ => ?_
  show (Turtle.reference (text ++ ['>'] ++ rest)).map _ = _
  rw [List.append_assoc, List.singleton_append, h.reference]
  rfl

theorem label {label : List Char} (h : IsLabel label) :
    Lexes Separated ('_' :: ':' :: label) [.label label] :=
  of_next (by decide) (by decide) fun _ hrest => h.labelToken hrest

theorem string {cs value : List Char} (h : StringText cs value) :
    Lexes Unquoted cs [.quoted value] := by
  obtain ⟨more, rfl, hmore⟩ := h.quotedToken
  exact of_next (by decide) (by decide) fun rest hrest => hmore rest hrest

theorem tag {tag : List Char} (h : IsTag tag) : Lexes Separated ('@' :: tag) [.tag tag] :=
  of_next (by decide) (by decide) fun _ hrest => h.tagToken hrest

theorem carets : Lexes (fun _ => True) ['^', '^'] [.carets] :=
  of_next (by decide) (by decide) fun _ _ => rfl

theorem dot : Lexes Separated ['.'] [.mark .dot] := by
  refine of_next (by decide) (by decide) fun rest hrest => ?_
  have hnumeral : numeral ('.' :: rest) = none :=
    numeral_eq_none (by decide) (by decide) (.inr fun d hd => isDigit_of_isBlank (hrest d hd))
  show plainToken '.' rest = _
  rw [plainToken, hnumeral]
  rfl

theorem name {name : List Char} (h : name = [] ∨ IsPrefixName name) :
    Lexes Separated (name ++ [':']) [.name name []] := by
  match name, h with
  | [], _ =>
    refine of_next (by decide) (by decide) fun rest hrest => ?_
    have hnumeral : numeral (':' :: rest) = none :=
      numeral_eq_none (by decide) (by decide) (.inl (by decide))
    show plainToken ':' rest = _
    rw [plainToken, hnumeral]
    have hprefix : prefixChars (':' :: rest) = ([], ':' :: rest) := rfl
    exact nameToken_of_prefixChars hprefix hrest
  | c :: cs, h =>
    have hname : IsPrefixName (c :: cs) := h.resolve_left (List.cons_ne_nil c cs)
    have hcomment : c ≠ '#' := ne_of_isPrefixStart hname.1 (by decide)
    have hdot : c ≠ '.' := ne_of_isPrefixStart hname.1 (by decide)
    refine of_next (isBlank_of_isPrefixStart hname.1) hcomment fun rest hrest => ?_
    have hprefix := hname.prefixChars rest
    show next c (cs ++ [':'] ++ rest) = _
    rw [next_of_isPrefixStart hname.1, plainToken, numeral_of_isPrefixStart hname.1,
      List.append_assoc, List.singleton_append]
    simp only [if_neg hdot]
    exact nameToken_of_prefixChars hprefix hrest

end Lexes

end ContextPolicy.Turtle
