import ContextPolicy.Json.Number
import ContextPolicy.Text.Hex

/-! The tokens of a JSON text, read one character after the other. A string may hold an
escape for half of a surrogate pair; it is then a string without content, which is an
error only where the content is asked for. -/
namespace ContextPolicy.Json

inductive Token where
  | openArray
  | closeArray
  | openObject
  | closeObject
  | comma
  | colon
  | null
  | bool (b : Bool)
  | number (n : Numeral)
  | string (content : Option String)
deriving DecidableEq, Repr

/-! ### Strings -/

/-- A part of a string: a character, or a 16-bit unit that was given by its number. -/
inductive Piece where
  | char (c : Char)
  | unit (n : Nat)
deriving DecidableEq, Repr

def isHighSurrogate (n : Nat) : Bool :=
  0xD800 ≤ n && n < 0xDC00

def isLowSurrogate (n : Nat) : Bool :=
  0xDC00 ≤ n && n < 0xE000

/-- The character that a pair of surrogates stands for. -/
def ofSurrogates (high low : Nat) : Char :=
  Char.ofNat (0x10000 + (high - 0xD800) * 0x400 + (low - 0xDC00))

/-- The characters of a string, unless half of a pair stands alone. -/
def content : List Piece → Option (List Char)
  | [] => some []
  | .char c :: rest => (content rest).map (c :: ·)
  | .unit n :: rest =>
    if isHighSurrogate n then
      match rest with
      | .unit m :: rest =>
        if isLowSurrogate m then (content rest).map (ofSurrogates n m :: ·) else none
      | _ => none
    else if isLowSurrogate n then none
    else (content rest).map (Char.ofNat n :: ·)

/-- The character that a letter behind a backslash stands for. -/
def escaped : Char → Option Char
  | '"' => some '"'
  | '\\' => some '\\'
  | '/' => some '/'
  | 'b' => some '\x08'
  | 'f' => some '\x0c'
  | 'n' => some '\n'
  | 'r' => some '\r'
  | 't' => some '\t'
  | _ => none

/-! ### The lexer -/

/-- What the characters read last belong to. Pieces and characters stand in reverse. -/
inductive Lexer where
  | between
  | word (cs : List Char)
  | string (pieces : List Piece)
  | escape (pieces : List Piece)
  /-- An escape by number, of which `count` digits have been read. -/
  | hex (pieces : List Piece) (count value : Nat)
deriving DecidableEq, Repr

namespace Lexer

def isBlank (c : Char) : Bool :=
  c = ' ' || c = '\t' || c = '\n' || c = '\r'

def isWordChar (c : Char) : Bool :=
  c.isAlphanum || c = '+' || c = '-' || c = '.'

/-- The token that a word is: a name or a number. -/
def wordToken (cs : List Char) : Option Token :=
  if cs = ['n', 'u', 'l', 'l'] then some .null
  else if cs = ['t', 'r', 'u', 'e'] then some (.bool true)
  else if cs = ['f', 'a', 'l', 's', 'e'] then some (.bool false)
  else (Numeral.read cs).map .number

/-- A character between tokens. -/
def start (c : Char) : Option (Lexer × List Token) :=
  if isBlank c then some (between, [])
  else if isWordChar c then some (word [c], [])
  else
    match c with
    | '[' => some (between, [.openArray])
    | ']' => some (between, [.closeArray])
    | '\x7b' => some (between, [.openObject])
    | '\x7d' => some (between, [.closeObject])
    | ',' => some (between, [.comma])
    | ':' => some (between, [.colon])
    | '"' => some (string [], [])
    | _ => none

/-- The lexer after a character, and the tokens that end with it. -/
def step : Lexer → Char → Option (Lexer × List Token)
  | between, c => start c
  | word cs, c =>
    if isWordChar c then some (word (c :: cs), [])
    else do
      let token ← wordToken cs.reverse
      let (next, tokens) ← start c
      pure (next, token :: tokens)
  | string pieces, c =>
    if c = '"' then some (between, [.string ((content pieces.reverse).map String.ofList)])
    else if c = '\\' then some (escape pieces, [])
    else if c < ' ' then none
    else some (string (.char c :: pieces), [])
  | escape pieces, c =>
    if c = 'u' then some (hex pieces 0 0, [])
    else (escaped c).map fun e => (string (.char e :: pieces), [])
  | hex pieces count value, c =>
    (Text.hexValue c).map fun d =>
      let value := 16 * value + d
      if count = 3 then (string (.unit value :: pieces), []) else (hex pieces (count + 1) value, [])

/-- The tokens that the end of the text completes. -/
def finish : Lexer → Option (List Token)
  | between => some []
  | word cs => (wordToken cs.reverse).map ([·])
  | _ => none

def run (l : Lexer) : List Char → Option (List Token)
  | [] => l.finish
  | c :: rest => do
    let (next, tokens) ← l.step c
    (tokens ++ ·) <$> run next rest

end Lexer

def tokens (text : String) : Option (List Token) :=
  Lexer.between.run text.toList

end ContextPolicy.Json
