import ContextPolicy.Turtle.Lexer

/-! The phrases of a Turtle text: runs of tokens that have a meaning as a whole, which are
the declarations, and quoted values with the tag or the datatype behind them. -/
namespace ContextPolicy.Turtle

/-- An IRI, as a reference or as a prefixed name. -/
inductive Ref where
  | reference (text : List Char)
  | name (space part : List Char)
deriving DecidableEq, Repr

inductive Phrase where
  /-- A prefix and the reference that it stands for. -/
  | declare (space reference : List Char)
  /-- The base of the references to come. -/
  | rebase (reference : List Char)
  | ref (r : Ref)
  /-- A blank node, or a literal whose datatype needs no base. -/
  | term (t : Term)
  | typed (value : List Char) (datatype : Ref)
  /-- The word for `rdf:type`. -/
  | isA
  | mark (m : Mark)
deriving DecidableEq, Repr

/-- A word without regard to case. -/
def folded (letters : List Char) : String :=
  String.ofList (letters.map Char.toLower)

def boolean (letters : List Char) : Phrase :=
  .term (.typed (String.ofList letters) Names.Xsd.boolean)

/-- A phrase that begins with a word, and what follows it. -/
def wordPhrase (letters : List Char) (rest : List Token) : Option (Phrase × List Token) :=
  if letters = ['a'] then some (.isA, rest)
  else if letters = "true".toList ∨ letters = "false".toList then some (boolean letters, rest)
  else
    match rest with
    | .name space [] :: .reference r :: rest =>
      if folded letters = "prefix" then some (.declare space r, rest) else none
    | .reference r :: rest => if folded letters = "base" then some (.rebase r, rest) else none
    | _ => none

/-- A phrase that begins with the word behind an at sign, and what follows it. -/
def tagPhrase (text : List Char) (rest : List Token) : Option (Phrase × List Token) :=
  match rest with
  | .name space [] :: .reference r :: .mark .dot :: rest =>
    if text = "prefix".toList then some (.declare space r, rest) else none
  | .reference r :: .mark .dot :: rest =>
    if text = "base".toList then some (.rebase r, rest) else none
  | _ => none

/-- A phrase that begins with a quoted value, and what follows it. -/
def quotedPhrase (value : List Char) (rest : List Token) : Option (Phrase × List Token) :=
  match rest with
  | .tag text :: rest =>
    some (.term (.tagged (String.ofList value) (String.ofList text)), rest)
  | .carets :: .reference r :: rest => some (.typed value (.reference r), rest)
  | .carets :: .name space part :: rest => some (.typed value (.name space part), rest)
  | rest => some (.term (.plain (String.ofList value)), rest)

/-- The phrase that begins with a token, and what follows it. -/
def phrase (t : Token) (rest : List Token) : Option (Phrase × List Token) :=
  match t with
  | .reference text => some (.ref (.reference text), rest)
  | .name space part => some (.ref (.name space part), rest)
  | .label text => some (.term (.blank (String.ofList text)), rest)
  | .quoted value => quotedPhrase value rest
  | .tag text => tagPhrase text rest
  | .carets => none
  | .number text datatype => some (.term (.typed (String.ofList text) datatype), rest)
  | .word letters => wordPhrase letters rest
  | .mark m => some (.mark m, rest)

theorem length_of_wordPhrase {letters : List Char} {rest left : List Token} {p : Phrase}
    (h : wordPhrase letters rest = some (p, left)) : left.length ≤ rest.length := by
  unfold wordPhrase at h
  repeat' split at h
  all_goals simp_all
  all_goals (obtain ⟨-, rfl⟩ := h; omega)

theorem length_of_tagPhrase {text : List Char} {rest left : List Token} {p : Phrase}
    (h : tagPhrase text rest = some (p, left)) : left.length ≤ rest.length := by
  unfold tagPhrase at h
  repeat' split at h
  all_goals simp_all
  all_goals (obtain ⟨-, rfl⟩ := h; omega)

theorem length_of_quotedPhrase {value : List Char} {rest left : List Token} {p : Phrase}
    (h : quotedPhrase value rest = some (p, left)) : left.length ≤ rest.length := by
  unfold quotedPhrase at h
  repeat' split at h
  all_goals simp_all
  all_goals (obtain ⟨-, rfl⟩ := h; omega)

theorem length_of_phrase {t : Token} {rest left : List Token} {p : Phrase}
    (h : phrase t rest = some (p, left)) : left.length ≤ rest.length := by
  unfold phrase at h
  split at h
  case h_4 => exact length_of_quotedPhrase h
  case h_5 => exact length_of_tagPhrase h
  case h_8 => exact length_of_wordPhrase h
  all_goals simp_all

/-- The phrases of a text, unless its tokens make none. -/
def phrases : List Token → Option (List Phrase)
  | [] => some []
  | t :: rest =>
    match h : phrase t rest with
    | none => none
    | some (p, left) =>
      have := length_of_phrase h
      (phrases left).map (p :: ·)
termination_by ts => ts.length

end ContextPolicy.Turtle
