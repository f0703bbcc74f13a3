import ContextPolicy.Turtle.Name
import ContextPolicy.Turtle.Numeral
import ContextPolicy.Turtle.Quoted

/-! The tokens of a Turtle text. Each is read off the front of the text as far as it goes;
white space and comments only separate them. -/
namespace ContextPolicy.Turtle

/-- Punctuation. -/
inductive Mark where
  | dot
  | comma
  | semicolon
  | openBracket
  | closeBracket
  | openList
  | closeList
deriving DecidableEq, Repr

inductive Token where
  /-- What stands between angle brackets. -/
  | reference (text : List Char)
  /-- A prefixed name: what stands in front of its colon and behind it. -/
  | name (space part : List Char)
  /-- The label of a blank node. -/
  | label (text : List Char)
  /-- What stands between quotes. -/
  | quoted (value : List Char)
  /-- The word behind an at sign. -/
  | tag (text : List Char)
  | carets
  /-- A number and the IRI of its datatype. -/
  | number (text : List Char) (datatype : String)
  | word (letters : List Char)
  | mark (m : Mark)
deriving DecidableEq, Repr

/-! ### Single tokens -/

/-- A label from behind its colon. -/
def labelToken : List Char → Option (Token × List Char)
  | [] => none
  | c :: rest =>
    if isLabelStart c then
      let (more, left) := nameChars rest
      some (.label (c :: more), left)
    else none

/-- What stands in front of the colon of a prefixed name. -/
def prefixChars : List Char → List Char × List Char
  | [] => ([], [])
  | c :: rest => if isPrefixStart c then nameChars (c :: rest) else ([], c :: rest)

/-- A prefixed name, or the letters in front where no colon follows. -/
def nameToken (cs : List Char) : Option (Token × List Char) :=
  match prefixChars cs with
  | (space, ':' :: rest) =>
    let found := localPart rest
    some (.name space found.1, found.2)
  | _ =>
    let letters := cs.takeWhile Char.isAlpha
    if letters = [] then none else some (.word letters, cs.dropWhile Char.isAlpha)

/-- The characters of a tag and what follows it. Letters come first, and letters and digits
behind a hyphen; a hyphen counts only in front of one of these. -/
def tagChars (primary : Bool) : List Char → List Char × List Char
  | [] => ([], [])
  | c :: rest =>
    if c.isAlpha || (!primary && c.isDigit) then keep c (tagChars primary rest)
    else if c = '-' && rest.head?.any Char.isAlphanum then keep c (tagChars false rest)
    else ([], c :: rest)

/-- A tag from behind its at sign. -/
def tagToken (cs : List Char) : Option (Token × List Char) :=
  if cs.head?.any Char.isAlpha then some (.tag (tagChars true cs).1, (tagChars true cs).2)
  else none

/-- A value from behind the first of its quotation marks. -/
def quotedToken (mark : Char) (rest : List Char) : Option (Token × List Char) :=
  let opened := openQuotes mark rest
  (quotedValue opened.1 opened.2).map fun (value, left) => (.quoted value, left)

/-- A number, a dot, a prefixed name or a word. -/
def plainToken (c : Char) (rest : List Char) : Option (Token × List Char) :=
  match numeral (c :: rest) with
  | some ((text, datatype), left) => some (.number text datatype, left)
  | none => if c = '.' then some (.mark .dot, rest) else nameToken (c :: rest)

/-- The token that a text begins with, and what follows it. -/
def next (c : Char) (rest : List Char) : Option (Token × List Char) :=
  match c, rest with
  | '<', rest => (reference rest).map fun (text, left) => (.reference text, left)
  | '"', rest => quotedToken '"' rest
  | '\'', rest => quotedToken '\'' rest
  | '@', rest => tagToken rest
  | '^', '^' :: rest => some (.carets, rest)
  | '_', ':' :: rest => labelToken rest
  | ',', rest => some (.mark .comma, rest)
  | ';', rest => some (.mark .semicolon, rest)
  | '[', rest => some (.mark .openBracket, rest)
  | ']', rest => some (.mark .closeBracket, rest)
  | '(', rest => some (.mark .openList, rest)
  | ')', rest => some (.mark .closeList, rest)
  | c, rest => plainToken c rest

/-! A token takes at least one character off the text. -/

theorem labelToken_suffix {cs left : List Char} {t : Token}
    (h : labelToken cs = some (t, left)) : left <:+ cs := by
  cases cs with
  | nil => simp [labelToken] at h
  | cons c rest =>
    simp only [labelToken] at h
    split at h
    · obtain ⟨-, rfl⟩ := Prod.mk.inj (Option.some.inj h)
      exact (nameChars_suffix rest).trans (List.suffix_cons ..)
    · simp at h

theorem prefixChars_suffix (cs : List Char) : (prefixChars cs).2 <:+ cs := by
  unfold prefixChars
  split
  · simp
  · split
    · exact nameChars_suffix _
    · exact List.suffix_refl _

theorem length_of_nameToken {cs left : List Char} {t : Token}
    (h : nameToken cs = some (t, left)) : left.length < cs.length := by
  unfold nameToken at h
  split at h
  · rename_i space rest hp
    obtain ⟨-, rfl⟩ := Prod.mk.inj (Option.some.inj h)
    have hcolon := (prefixChars_suffix cs).length_le
    rw [hp] at hcolon
    exact Nat.lt_of_le_of_lt (localPart_suffix rest).length_le hcolon
  · simp only at h
    split at h
    · simp at h
    · rename_i hne
      obtain ⟨-, rfl⟩ := Prod.mk.inj (Option.some.inj h)
      have happ := congrArg List.length (List.takeWhile_append_dropWhile (p := Char.isAlpha) (l := cs))
      have hpos := List.length_pos_iff.mpr hne
      simp only [List.length_append] at happ
      omega

theorem quotedToken_suffix {mark : Char} {rest left : List Char} {t : Token}
    (h : quotedToken mark rest = some (t, left)) : left <:+ rest := by
  obtain ⟨⟨value, _⟩, hv, h⟩ := Option.map_eq_some_iff.mp h
  obtain ⟨-, rfl⟩ := Prod.mk.inj h
  exact (quotedValue_suffix hv).trans (openQuotes_suffix mark rest)

theorem tagChars_suffix (primary : Bool) (cs : List Char) : (tagChars primary cs).2 <:+ cs := by
  fun_induction tagChars primary cs with
  | case1 => exact List.suffix_rfl
  | case2 primary c rest h ih => exact ih.trans (List.suffix_cons c rest)
  | case3 primary c rest h hyphen ih => exact ih.trans (List.suffix_cons c rest)
  | case4 => exact List.suffix_rfl

theorem tagToken_suffix {cs left : List Char} {t : Token} (h : tagToken cs = some (t, left)) :
    left <:+ cs := by
  unfold tagToken at h
  split at h
  · obtain ⟨-, rfl⟩ := Prod.mk.inj (Option.some.inj h)
    exact tagChars_suffix true cs
  · simp at h

theorem length_of_plainToken {c : Char} {rest left : List Char} {t : Token}
    (h : plainToken c rest = some (t, left)) : left.length ≤ rest.length := by
  unfold plainToken at h
  split at h
  · rename_i hn
    obtain ⟨-, rfl⟩ := Prod.mk.inj (Option.some.inj h)
    exact Nat.le_of_lt_succ (length_of_numeral hn)
  · split at h
    · obtain ⟨-, rfl⟩ := Prod.mk.inj (Option.some.inj h)
      exact Nat.le_refl _
    · exact Nat.le_of_lt_succ (length_of_nameToken h)

theorem length_of_next {c : Char} {rest left : List Char} {t : Token}
    (h : next c rest = some (t, left)) : left.length ≤ rest.length := by
  unfold next at h
  split at h
  · obtain ⟨⟨text, _⟩, hr, h⟩ := Option.map_eq_some_iff.mp h
    obtain ⟨-, rfl⟩ := Prod.mk.inj h
    exact (reference_suffix hr).length_le
  · exact (quotedToken_suffix h).length_le
  · exact (quotedToken_suffix h).length_le
  · exact (tagToken_suffix h).length_le
  · simp_all
  · exact Nat.le_trans (labelToken_suffix h).length_le (by simp)
  · simp_all
  · simp_all
  · simp_all
  · simp_all
  · simp_all
  · simp_all
  · exact length_of_plainToken h

/-! ### The lexer -/

def isBlank (c : Char) : Bool :=
  c = ' ' || c = '\t' || c = '\n' || c = '\r'

/-- A text without the white space and the comments in front of it. -/
def skip (inComment : Bool) : List Char → List Char
  | [] => []
  | c :: rest =>
    if inComment then skip (c != '\n' && c != '\r') rest
    else if isBlank c then skip false rest
    else if c = '#' then skip true rest
    else c :: rest

theorem skip_suffix (inComment : Bool) (cs : List Char) : skip inComment cs <:+ cs := by
  fun_induction skip inComment cs <;> grind [List.suffix_cons_iff]

/-- The tokens of a text, unless something in it is no token. -/
def tokens (cs : List Char) : Option (List Token) :=
  match hs : skip false cs with
  | [] => some []
  | c :: rest =>
    match h : next c rest with
    | none => none
    | some (t, left) =>
      have : left.length < cs.length := by
        have hskip := (skip_suffix false cs).length_le
        rw [hs] at hskip
        exact Nat.lt_of_le_of_lt (length_of_next h) hskip
      (tokens left).map (t :: ·)
termination_by cs.length

end ContextPolicy.Turtle
