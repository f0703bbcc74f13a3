import ContextPolicy.Text.Hex

/-! Characters that XML texts give by their names or numbers. -/
namespace ContextPolicy.Xml

/-- How a character with a meaning of its own is written. -/
def escapeChar (c : Char) : List Char :=
  if c = '<' then "&lt;".toList
  else if c = '>' then "&gt;".toList
  else if c = '&' then "&amp;".toList
  else if c = '\'' then "&apos;".toList
  else if c = '"' then "&quot;".toList
  else [c]

def escape (cs : List Char) : List Char :=
  cs.flatMap escapeChar

/-- The character with a number. -/
def ofNumber (n : Nat) : Option Char :=
  if n ≠ 0 ∧ n.isValidChar then some (Char.ofNat n) else none

/-- The character that stands between an ampersand and a semicolon. -/
def entity : List Char → Option Char
  | ['l', 't'] => some '<'
  | ['g', 't'] => some '>'
  | ['a', 'm', 'p'] => some '&'
  | ['a', 'p', 'o', 's'] => some '\''
  | ['q', 'u', 'o', 't'] => some '"'
  | '#' :: 'x' :: ds => if ds = [] then none else (Text.ofHexDigits ds).bind ofNumber
  | '#' :: ds =>
    if ds = [] || !ds.all Char.isDigit then none
    else ofNumber (ds.foldl (fun n d => 10 * n + (d.toNat - '0'.toNat)) 0)
  | _ => none

/-- Behind an ampersand: the characters up to the semicolon, in reverse. -/
def unescapeFrom (pending : Option (List Char)) : List Char → Option (List Char)
  | [] => if pending.isNone then some [] else none
  | c :: rest =>
    match pending with
    | none =>
      if c = '&' then unescapeFrom (some []) rest else (unescapeFrom none rest).map (c :: ·)
    | some cs =>
      if c = ';' then do
        let d ← entity cs.reverse
        (unescapeFrom none rest).map (d :: ·)
      else unescapeFrom (some (c :: cs)) rest

/-- A text with its entities replaced, unless one of them is unknown. -/
def unescape (cs : List Char) : Option (List Char) :=
  unescapeFrom none cs

/-- A character is read back from its written form. -/
theorem unescapeFrom_escapeChar (c : Char) (rest : List Char) :
    unescapeFrom none (escapeChar c ++ rest) = (unescapeFrom none rest).map (c :: ·) := by
  by_cases hc : c ∈ ['<', '>', '&', '\'', '"']
  · simp only [List.mem_cons, List.not_mem_nil, or_false] at hc
    obtain rfl | rfl | rfl | rfl | rfl := hc <;> rfl
  · simp only [List.mem_cons, List.not_mem_nil, or_false, not_or] at hc
    obtain ⟨h1, h2, h3, h4, h5⟩ := hc
    simp only [escapeChar, h1, h2, h3, h4, h5, if_false, List.cons_append, List.nil_append,
      unescapeFrom]

theorem unescape_escape (cs : List Char) : unescape (escape cs) = some cs := by
  induction cs with
  | nil => rfl
  | cons c rest ih =>
    have ih : unescapeFrom none (escape rest) = some rest := ih
    show unescapeFrom none (escapeChar c ++ escape rest) = some (c :: rest)
    rw [unescapeFrom_escapeChar, ih]
    rfl

end ContextPolicy.Xml
