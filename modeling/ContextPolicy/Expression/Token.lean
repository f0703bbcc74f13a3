import ContextPolicy.Text.Blank
import ContextPolicy.Text.Lowercase
import ContextPolicy.Text.Quoted

/-! The tokens of an expression's text, each with its place in bytes. Signs stand for
themselves; any other run of characters up to a sign or white space is a word, and a word
that reads as an operator in any case is that operator. -/
namespace ContextPolicy.Expression

inductive Token where
  | and
  | or
  | not
  | openParen
  | closeParen
  | word (text : String)
deriving DecidableEq, Repr

namespace Token

/-- A token in messages. -/
def shown : Token → String
  | and => "'and'"
  | or => "'or'"
  | not => "'not'"
  | openParen => "'('"
  | closeParen => "')'"
  | word text => "keyword " ++ Text.quoted text

/-- The token that a run of word characters is. -/
def ofWord (text : String) : Token :=
  let lower := Text.lowercase text
  if lower = "and" then and
  else if lower = "or" then or
  else if lower = "not" then not
  else word text

end Token

/-- Whether a character is a sign of its own. -/
def isSign (c : Char) : Bool :=
  c = '(' || c = ')' || c = '!' || c = '&' || c = '|'

def isWordChar (c : Char) : Bool :=
  !Text.isBlank c && !isSign c

/-- How many bytes characters take. -/
def width : List Char → Nat
  | [] => 0
  | c :: rest => c.utf8Size + width rest

/-- The token that begins with a character that is not blank, and its other characters. -/
def token (c : Char) (rest : List Char) : Token × List Char :=
  if c = '(' then (.openParen, [])
  else if c = ')' then (.closeParen, [])
  else if c = '!' then (.not, [])
  else if c = '&' ∨ c = '|' then
    (if c = '&' then .and else .or, if rest.head? = some c then [c] else [])
  else
    let more := rest.takeWhile isWordChar
    (.ofWord (String.ofList (c :: more)), more)

/-- The tokens of what follows the first `offset` bytes of a text. -/
def tokensFrom (offset : Nat) : List Char → List (Nat × Token)
  | [] => []
  | c :: rest =>
    if Text.isBlank c then tokensFrom (offset + c.utf8Size) rest
    else
      let (t, more) := token c rest
      (offset, t) :: tokensFrom (offset + width (c :: more)) (rest.drop more.length)
termination_by cs => cs.length
decreasing_by
  · simp
  · simp only [List.length_drop, List.length_cons]
    omega

def tokens (text : String) : List (Nat × Token) :=
  tokensFrom 0 text.toList

end ContextPolicy.Expression
