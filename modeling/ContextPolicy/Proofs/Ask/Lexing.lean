import ContextPolicy.Ask
import ContextPolicy.Proofs.Document.ReadBack
import ContextPolicy.Proofs.Text.Scan

/-! The tokens of ASK queries.

Queries share their terms with Turtle and are read with the scanners for it; braces, words
and variables come on top. An IRI with its brackets is one token, and so is a literal with
its quotes and its tag: nothing inside them is looked at again. `Lexes` says of a piece of
text that in front of white space its characters give these tokens, so pieces with white
space between them can be put together (`Lexes.append`), and a term gives the token that it
is itself (`Lexes.slot`). -/
namespace ContextPolicy.Ask

open Turtle (Separated IsReference)

/-! ### The lexer -/

inductive Token where
  | openBrace
  | closeBrace
  | dot
  | word (letters : String)
  /-- A variable or a term, the tag of a literal included. -/
  | slot (s : Slot)
deriving DecidableEq, Repr

def isVariableChar (c : Char) : Bool :=
  Turtle.isLabelStart c || Text.isNameExtend c

/-- A variable from behind its mark. -/
def variableSlot : List Char → Option (Slot × List Char)
  | [] => none
  | c :: rest =>
    if Turtle.isLabelStart c then
      some (.var (String.ofList (c :: rest.takeWhile isVariableChar)),
        rest.dropWhile isVariableChar)
    else none

/-- An IRI from behind its opening bracket. -/
def iri (rest : List Char) : Option (String × List Char) :=
  (Turtle.reference rest).map fun (text, left) => (String.ofList text, left)

/-- The literal with a value in front of its tag, if it has one. -/
def literalSlot (value : String) : List Char → Option (Slot × List Char)
  | '@' :: rest =>
    match Turtle.tagToken rest with
    | some (.tag tag, left) => some (.term (.tagged value (String.ofList tag)), left)
    | _ => none
  | '^' :: '^' :: '<' :: rest =>
    (iri rest).map fun (datatype, left) => (.term (.typed value datatype), left)
  | rest => some (.term (.plain value), rest)

/-- A literal from behind the first of its quotation marks. -/
def quotedSlot (mark : Char) (rest : List Char) : Option (Slot × List Char) :=
  match Turtle.quotedToken mark rest with
  | some (.quoted value, left) => literalSlot (String.ofList value) left
  | _ => none

/-- A blank node from behind the colon of its label. -/
def labelSlot (rest : List Char) : Option (Slot × List Char) :=
  match Turtle.labelToken rest with
  | some (.label label, left) => some (.term (.blank (String.ofList label)), left)
  | _ => none

/-- The variable or the term that a text begins with, and what follows it. -/
def nextSlot (c : Char) (rest : List Char) : Option (Slot × List Char) :=
  match c, rest with
  | '?', rest | '$', rest => variableSlot rest
  | '<', rest => (iri rest).map fun (text, left) => (.term (.named text), left)
  | '"', rest => quotedSlot '"' rest
  | '\'', rest => quotedSlot '\'' rest
  | '_', ':' :: rest => labelSlot rest
  | _, _ => none

/-- The token that a text begins with, and what follows it. -/
def next (c : Char) (rest : List Char) : Option (Token × List Char) :=
  if c = '\x7b' then some (.openBrace, rest)
  else if c = '\x7d' then some (.closeBrace, rest)
  else if c = '.' then some (.dot, rest)
  else if c.isAlpha then
    some (.word (String.ofList (c :: rest.takeWhile Char.isAlpha)), rest.dropWhile Char.isAlpha)
  else (nextSlot c rest).map fun (s, left) => (.slot s, left)

section Suffix
variable {rest left : List Char} {s : Slot}

theorem iri_suffix {text : String} (h : iri rest = some (text, left)) : left <:+ rest := by
  obtain ⟨⟨cs, _⟩, hcs, h⟩ := Option.map_eq_some_iff.mp h
  obtain ⟨-, rfl⟩ := Prod.mk.inj h
  exact Turtle.reference_suffix hcs

theorem variableSlot_suffix (h : variableSlot rest = some (s, left)) : left <:+ rest := by
  unfold variableSlot at h
  split at h
  · cases h
  · split at h
    · obtain ⟨-, rfl⟩ := Prod.mk.inj (Option.some.inj h)
      exact (List.dropWhile_suffix _).trans (List.suffix_cons ..)
    · cases h

theorem literalSlot_suffix {value : String} (h : literalSlot value rest = some (s, left)) :
    left <:+ rest := by
  unfold literalSlot at h
  split at h
  · split at h
    · next htag =>
      obtain ⟨-, rfl⟩ := Prod.mk.inj (Option.some.inj h)
      exact (Turtle.tagToken_suffix htag).trans (List.suffix_cons ..)
    · cases h
  · obtain ⟨⟨text, _⟩, htext, h⟩ := Option.map_eq_some_iff.mp h
    obtain ⟨-, rfl⟩ := Prod.mk.inj h
    exact (iri_suffix htext).trans (List.suffix_append ['^', '^', '<'] _)
  · obtain ⟨-, rfl⟩ := Prod.mk.inj (Option.some.inj h)
    exact List.suffix_rfl

theorem quotedSlot_suffix {mark : Char} (h : quotedSlot mark rest = some (s, left)) :
    left <:+ rest := by
  unfold quotedSlot at h
  split at h
  · next hquoted => exact (literalSlot_suffix h).trans (Turtle.quotedToken_suffix hquoted)
  · cases h

theorem labelSlot_suffix (h : labelSlot rest = some (s, left)) : left <:+ rest := by
  unfold labelSlot at h
  split at h
  · next hlabel =>
    obtain ⟨-, rfl⟩ := Prod.mk.inj (Option.some.inj h)
    exact Turtle.labelToken_suffix hlabel
  · cases h

theorem nextSlot_suffix {c : Char} (h : nextSlot c rest = some (s, left)) : left <:+ rest := by
  unfold nextSlot at h
  split at h
  · exact variableSlot_suffix h
  · exact variableSlot_suffix h
  · obtain ⟨⟨text, _⟩, htext, h⟩ := Option.map_eq_some_iff.mp h
    obtain ⟨-, rfl⟩ := Prod.mk.inj h
    exact iri_suffix htext
  · exact quotedSlot_suffix h
  · exact quotedSlot_suffix h
  · exact (labelSlot_suffix h).trans (List.suffix_cons ..)
  · cases h

theorem next_suffix {c : Char} {t : Token} (h : next c rest = some (t, left)) :
    left <:+ rest := by
  unfold next at h
  split_ifs at h
  · obtain ⟨-, rfl⟩ := Prod.mk.inj (Option.some.inj h)
    exact List.suffix_rfl
  · obtain ⟨-, rfl⟩ := Prod.mk.inj (Option.some.inj h)
    exact List.suffix_rfl
  · obtain ⟨-, rfl⟩ := Prod.mk.inj (Option.some.inj h)
    exact List.suffix_rfl
  · obtain ⟨-, rfl⟩ := Prod.mk.inj (Option.some.inj h)
    exact List.dropWhile_suffix _
  · obtain ⟨⟨slot, _⟩, hslot, h⟩ := Option.map_eq_some_iff.mp h
    obtain ⟨-, rfl⟩ := Prod.mk.inj h
    exact nextSlot_suffix hslot

end Suffix

/-- The tokens of a text, unless something in it is no token. -/
def tokens (cs : List Char) : Option (List Token) :=
  match hs : Turtle.skip false cs with
  | [] => some []
  | c :: rest =>
    match h : next c rest with
    | none => none
    | some (t, left) =>
      have : left.length < cs.length := by
        have hskip := (Turtle.skip_suffix false cs).length_le
        rw [hs] at hskip
        exact Nat.lt_of_le_of_lt (next_suffix h).length_le hskip
      (tokens left).map (t :: ·)
termination_by cs.length

theorem tokens_eq (cs : List Char) : tokens cs =
    match Turtle.skip false cs with
    | [] => some []
    | c :: rest => (next c rest).bind fun (t, left) => (tokens left).map (t :: ·) := by
  rw [tokens]
  split <;> rename_i hskip
  · simp only [hskip]
  · simp only [hskip]
    split <;> rename_i hnext
    · simp only [hnext, Option.bind_none]
    · simp only [hnext, Option.bind_some]

/-! ### Pieces of text -/

/-- In front of white space a piece of text gives these tokens. -/
def Lexes (cs : List Char) (ts : List Token) : Prop :=
  ∀ rest, Separated rest → tokens (cs ++ rest) = (tokens rest).map (ts ++ ·)

theorem separated_nil : Separated [] :=
  nofun

theorem separated_space (cs : List Char) : Separated (' ' :: cs) := by
  rintro c ⟨⟩
  rfl

theorem tokens_space (cs : List Char) : tokens (' ' :: cs) = tokens cs := by
  have hskip : Turtle.skip false (' ' :: cs) = Turtle.skip false cs := by
    rw [Turtle.skip]
    rfl
  rw [tokens_eq, hskip, ← tokens_eq]

namespace Lexes
variable {cs ds : List Char} {ts us : List Token}

theorem nil : Lexes [] [] := by
  intro rest _
  simp

theorem space (h : Lexes cs ts) : Lexes (' ' :: cs) ts := by
  intro rest hrest
  rw [List.cons_append, tokens_space, h rest hrest]

theorem append (h : Lexes cs ts) (hds : Separated ds) (h' : Lexes ds us) :
    Lexes (cs ++ ds) (ts ++ us) := by
  intro rest hrest
  have hbehind : Separated (ds ++ rest) := by
    cases ds with
    | nil => exact hrest
    | cons d ds => exact hds
  rw [List.append_assoc, h _ hbehind, h' rest hrest, Option.map_map]
  congr 1
  funext vs
  exact (List.append_assoc ts us vs).symm

/-- Pieces with a space between them. -/
theorem behind_space (h : Lexes cs ts) (h' : Lexes ds us) :
    Lexes (cs ++ ' ' :: ds) (ts ++ us) :=
  h.append (separated_space ds) h'.space

theorem of_next {c : Char} {t : Token} (hblank : Turtle.isBlank c = false) (hcomment : c ≠ '#')
    (h : ∀ rest, Separated rest → next c (cs ++ rest) = some (t, rest)) : Lexes (c :: cs) [t] := by
  intro rest hrest
  have hskip : Turtle.skip false (c :: cs ++ rest) = c :: (cs ++ rest) := by
    simp [Turtle.skip, hblank, hcomment]
  rw [tokens_eq, hskip]
  simp only [h rest hrest, Option.bind_some]
  rfl

/-- The tokens of a text as a whole. -/
theorem tokens_eq (h : Lexes cs ts) : tokens cs = some ts := by
  have hend : tokens [] = some [] := by
    rw [Ask.tokens_eq]
    rfl
  have hcs := h [] separated_nil
  rw [hend] at hcs
  simpa using hcs

/-! ### Signs and words -/

theorem openBrace : Lexes ['\x7b'] [.openBrace] :=
  of_next (by decide) (by decide) fun _ _ => rfl

theorem closeBrace : Lexes ['\x7d'] [.closeBrace] :=
  of_next (by decide) (by decide) fun _ _ => rfl

theorem dot : Lexes ['.'] [.dot] :=
  of_next (by decide) (by decide) fun _ _ => rfl

end Lexes

theorem isAlpha_of_isBlank {c : Char} (h : Turtle.isBlank c = true) : c.isAlpha = false := by
  obtain rfl | rfl | rfl | rfl := (Turtle.isBlank_iff c).mp h <;> decide

theorem isVariableChar_of_isBlank {c : Char} (h : Turtle.isBlank c = true) :
    isVariableChar c = false := by
  obtain rfl | rfl | rfl | rfl := (Turtle.isBlank_iff c).mp h <;> decide

/-- What is no letter is no sign of another kind of token either. -/
theorem Lexes.word {letters : String} (hne : letters ≠ "")
    (h : ∀ c ∈ letters.toList, c.isAlpha = true) : Lexes letters.toList [.word letters] := by
  obtain ⟨c, more, hcs⟩ := List.exists_cons_of_ne_nil (mt String.toList_eq_nil_iff.mp hne)
  rw [hcs] at h
  have hletter := h c List.mem_cons_self
  have hsign : ∀ d : Char, d.isAlpha = false → c ≠ d := by
    rintro d hd rfl
    rw [hletter] at hd
    cases hd
  rw [hcs]
  refine of_next ?_ (hsign _ (by decide)) fun rest hrest => ?_
  · cases hblank : Turtle.isBlank c with
    | false => rfl
    | true =>
      rw [isAlpha_of_isBlank hblank] at hletter
      cases hletter
  · obtain ⟨htake, hdrop⟩ := Text.scan_append (fun d hd => h d (List.mem_cons_of_mem c hd))
      fun d hd => isAlpha_of_isBlank (hrest d hd)
    rw [next, if_neg (hsign _ (by decide)), if_neg (hsign _ (by decide)),
      if_neg (hsign _ (by decide)), if_pos hletter, htake, hdrop, ← hcs, String.ofList_toList]

/-! ### Variables and terms -/

/-- `VARNAME` -/
def IsVariable : List Char → Prop
  | [] => False
  | c :: rest => Turtle.isLabelStart c = true ∧ ∀ d ∈ rest, isVariableChar d = true

instance (cs : List Char) : Decidable (IsVariable cs) :=
  match cs with
  | [] => .isFalse id
  | _ :: rest =>
    have := List.decidableBAll (fun d => isVariableChar d = true) rest
    inferInstanceAs (Decidable (_ ∧ _))

/-- What the grammar has a token for, IRIs being taken as they stand. -/
def Slot.Readable : Slot → Prop
  | var name => IsVariable name.toList
  | term t => t.Readable some

theorem IsVariable.variableSlot {name : String} {rest : List Char}
    (h : IsVariable name.toList) (hrest : Separated rest) :
    variableSlot (name.toList ++ rest) = some (.var name, rest) := by
  match hcs : name.toList, h with
  | c :: cs, h =>
    obtain ⟨htake, hdrop⟩ := Text.scan_append h.2 fun d hd =>
      isVariableChar_of_isBlank (hrest d hd)
    rw [List.cons_append, Ask.variableSlot, if_pos h.1, htake, hdrop, ← hcs,
      String.ofList_toList]

theorem iri_append {text : String} (h : IsReference text.toList) (rest : List Char) :
    iri (text.toList ++ '>' :: rest) = some (text, rest) := by
  rw [iri, h.reference]
  simp

/-- A literal is read with its tag, from behind its value. -/
theorem literalSlot_writtenTag {value : String} {datatype lang : Option String}
    (h : (Term.literal value datatype lang).Readable some) {rest : List Char}
    (hrest : Separated rest) :
    literalSlot value (Term.writtenTag datatype lang ++ rest) =
      some (.term (.literal value datatype lang), rest) := by
  match datatype, lang, h with
  | none, none, _ =>
    have hplain : literalSlot value rest = some (.term (.plain value), rest) := by
      cases rest with
      | nil => rfl
      | cons c rest =>
        obtain rfl | rfl | rfl | rfl := (Turtle.isBlank_iff c).mp (hrest c rfl) <;> rfl
    exact hplain
  | some datatype, none, h =>
    have hiri := iri_append h.1 rest
    show literalSlot value (['^', '^', '<'] ++ datatype.toList ++ ['>'] ++ rest) = _
    simp only [List.append_assoc, List.cons_append, List.nil_append, literalSlot, hiri,
      Option.map_some]
    rfl
  | none, some lang, h =>
    have htag := Turtle.IsTag.tagToken h hrest
    show literalSlot value ('@' :: (lang.toList ++ rest)) = _
    simp only [literalSlot, htag, String.ofList_toList]
    rfl

theorem unquoted_writtenTag {datatype lang : Option String} {rest : List Char}
    (hrest : Separated rest) : Turtle.Unquoted (Term.writtenTag datatype lang ++ rest) := by
  cases lang with
  | some lang => nofun
  | none =>
    cases datatype with
    | some datatype => nofun
    | none => exact hrest.unquoted

/-- A variable or a term is scanned as the one that it is, and shows by its first character that
it is one. -/
theorem nextSlot_written {s : Slot} (h : s.Readable) :
    ∃ c cs, s.written = c :: cs ∧ c ∈ ['?', '<', '"', '_'] ∧
      ∀ rest, Separated rest → nextSlot c (cs ++ rest) = some (s, rest) := by
  match s, h with
  | .var name, h => exact ⟨'?', _, rfl, by decide, fun rest hrest => h.variableSlot hrest⟩
  | .term (.named text), h =>
    refine ⟨'<', _, rfl, by decide, fun rest _ => ?_⟩
    show (iri (text.toList ++ ['>'] ++ rest)).map _ = _
    rw [List.append_assoc, List.singleton_append, iri_append h.1]
    rfl
  | .term (.blank label), h =>
    refine ⟨'_', _, rfl, by decide, fun rest hrest => ?_⟩
    show labelSlot (label.toList ++ rest) = _
    rw [labelSlot, Turtle.IsLabel.labelToken h hrest]
    simp only [String.ofList_toList]
  | .term (.literal value datatype lang), h =>
    obtain ⟨more, hmore, hquoted⟩ := (Term.writtenValue_stringText value.toList).quotedToken
    have hwritten : Slot.written (.term (.literal value datatype lang)) =
        '"' :: (more ++ Term.writtenTag datatype lang) := by
      show Term.writtenValue value.toList ++ Term.writtenTag datatype lang = _
      rw [hmore, List.cons_append]
    refine ⟨'"', _, hwritten, by decide, fun rest hrest => ?_⟩
    show quotedSlot '"' (more ++ Term.writtenTag datatype lang ++ rest) = _
    rw [List.append_assoc, quotedSlot, hquoted _ (unquoted_writtenTag hrest)]
    simp only [String.ofList_toList]
    exact literalSlot_writtenTag h hrest

/-- A variable or a term gives the token that it is. -/
theorem Lexes.slot {s : Slot} (h : s.Readable) : Lexes s.written [.slot s] := by
  obtain ⟨c, cs, hwritten, hc, hnext⟩ := nextSlot_written h
  have hfirst : Turtle.isBlank c = false ∧ c ≠ '#' ∧ c ≠ '\x7b' ∧ c ≠ '\x7d' ∧ c ≠ '.' ∧
      c.isAlpha = false := by
    simp only [List.mem_cons, List.not_mem_nil, or_false] at hc
    obtain rfl | rfl | rfl | rfl := hc <;> decide
  obtain ⟨hblank, hcomment, hopen, hclose, hdot, hletter⟩ := hfirst
  rw [hwritten]
  refine of_next hblank hcomment fun rest hrest => ?_
  rw [next, if_neg hopen, if_neg hclose, if_neg hdot, hletter, hnext rest hrest]
  rfl

end ContextPolicy.Ask
