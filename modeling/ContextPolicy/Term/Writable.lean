import ContextPolicy.Term
import ContextPolicy.Text.Letters

/-! Which terms have a written form that can be read back. The written form escapes
inside quotes only, so an IRI, a label and a tag have to do without the characters that
would end them. -/
namespace ContextPolicy

/-- The characters that an IRI between angle brackets cannot hold. -/
def Iri.forbidden (c : Char) : Bool :=
  c ≤ ' ' || c ∈ ['<', '>', '"', '\x7b', '\x7d', '|', '^', '\x60', '\\']

/-- Not empty, and without forbidden characters. -/
def Iri.writable (iri : String) : Bool :=
  !iri.toList.isEmpty && !iri.toList.any Iri.forbidden

/-- A character inside a label or a prefix name. -/
def nameChar (c : Char) : Bool :=
  Text.isAlphanumeric c || c == '_' || c == '-' || c == '.'

/-- Name characters, the first a letter, a digit or `_` and the last no dot. -/
def Label.writable (label : String) : Bool :=
  match label.toList with
  | [] => false
  | first :: rest =>
    (Text.isAlphanumeric first || first == '_') && (first :: rest).getLast? != some '.' &&
      (first :: rest).all nameChar

/-- The name of a prefix declaration: empty, or name characters with a letter first and
no dot last. -/
def PrefixName.writable (name : String) : Bool :=
  match name.toList with
  | [] => true
  | first :: rest =>
    Text.isAlphabetic first && (first :: rest).getLast? != some '.' &&
      (first :: rest).all nameChar

theorem Label.nameChar_of_mem {label : String} {c : Char} (h : Label.writable label = true)
    (hc : c ∈ label.toList) : nameChar c = true := by
  unfold Label.writable at h
  split at h
  · cases h
  · next first rest hlabel =>
    rw [Bool.and_eq_true, List.all_eq_true] at h
    exact h.2 c (hlabel ▸ hc)

theorem PrefixName.nameChar_of_mem {name : String} {c : Char}
    (h : PrefixName.writable name = true) (hc : c ∈ name.toList) : nameChar c = true := by
  unfold PrefixName.writable at h
  split at h
  · next hname =>
    rw [hname] at hc
    cases hc
  · next first rest hname =>
    rw [Bool.and_eq_true, List.all_eq_true] at h
    exact h.2 c (hname ▸ hc)

def isAsciiLetter (c : Char) : Bool :=
  c.isAlpha

def isAsciiLetterOrDigit (c : Char) : Bool :=
  c.isAlphanum

/-- The parts of a language tag, which hyphens separate. -/
def Lang.parts : List Char → List (List Char)
  | [] => [[]]
  | c :: rest =>
    match Lang.parts rest with
    | [] => [[c]]
    | part :: others => if c = '-' then [] :: part :: others else (c :: part) :: others

/-- A first part of ASCII letters, further ones of ASCII letters and digits, none empty. -/
def Lang.writable (lang : String) : Bool :=
  match Lang.parts lang.toList with
  | [] => false
  | primary :: others =>
    !primary.isEmpty && primary.all isAsciiLetter &&
      others.all fun part => !part.isEmpty && part.all isAsciiLetterOrDigit

/-- A literal's datatype is not written behind a language, so only the language counts. -/
def Term.writable : Term → Bool
  | .named iri => Iri.writable iri
  | .blank label => Label.writable label
  | .literal _ _ (some lang) => Lang.writable lang
  | .literal _ (some datatype) none => Iri.writable datatype
  | .literal _ none none => true

end ContextPolicy
