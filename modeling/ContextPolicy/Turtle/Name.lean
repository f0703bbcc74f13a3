import ContextPolicy.Text.Hex
import ContextPolicy.Text.NameChars

/-! The names of Turtle: prefixes, labels, and the second parts of prefixed names. A name
may hold dots but not end with one, so a dot counts only in front of more. -/
namespace ContextPolicy.Turtle

def isPrefixStart (c : Char) : Bool :=
  Text.isNameStart c

def isLabelStart (c : Char) : Bool :=
  isPrefixStart c || c == '_' || c.isDigit

def isNameChar (c : Char) : Bool :=
  isLabelStart c || c == '-' || Text.isNameExtend c

/-- The characters that may stand behind a backslash in a prefixed name. -/
def isEscapable (c : Char) : Bool :=
  c ∈ ['_', '~', '.', '-', '!', '$', '&', '\'', '(', ')', '*', '+', ',', ';', '=', '/', '?',
    '#', '@', '%']

/-- The characters of a name and what follows it. -/
def nameChars : List Char → List Char × List Char
  | [] => ([], [])
  | c :: rest =>
    if isNameChar c then
      let (more, left) := nameChars rest
      (c :: more, left)
    else if c = '.' then
      match nameChars rest with
      | ([], _) => ([], c :: rest)
      | (more, left) => (c :: more, left)
    else ([], c :: rest)

/-- The characters of the second part of a prefixed name and what follows it. -/
def localChars : List Char → List Char × List Char
  | [] => ([], [])
  | '\\' :: c :: rest =>
    if isEscapable c then
      let (more, left) := localChars rest
      (c :: more, left)
    else ([], '\\' :: c :: rest)
  | '%' :: a :: b :: rest =>
    if Text.isHexDigit a && Text.isHexDigit b then
      let (more, left) := localChars rest
      ('%' :: a :: b :: more, left)
    else ([], '%' :: a :: b :: rest)
  | c :: rest =>
    if isNameChar c || c = ':' then
      let (more, left) := localChars rest
      (c :: more, left)
    else if c = '.' then
      match localChars rest with
      | ([], _) => ([], c :: rest)
      | (more, left) => (c :: more, left)
    else ([], c :: rest)

/-- The second part of a prefixed name, which may be empty. -/
def localPart : List Char → List Char × List Char
  | [] => ([], [])
  | c :: rest =>
    if isLabelStart c || c = ':' || c = '%' || c = '\\' then localChars (c :: rest)
    else ([], c :: rest)

/-! Names are read off the front of a text. -/

theorem nameChars_suffix (cs : List Char) : (nameChars cs).2 <:+ cs := by
  fun_induction nameChars cs <;> simp_all <;> grind [List.suffix_cons_iff]

theorem localChars_suffix (cs : List Char) : (localChars cs).2 <:+ cs := by
  fun_induction localChars cs <;> simp_all <;> grind [List.suffix_cons_iff]

theorem localPart_suffix (cs : List Char) : (localPart cs).2 <:+ cs := by
  unfold localPart
  split
  · simp
  · split
    · exact localChars_suffix _
    · exact List.suffix_refl _

end ContextPolicy.Turtle
