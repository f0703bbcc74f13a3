import ContextPolicy.Xml.Entity

/-! The tags and texts of an XML document, read one character after the other. Comments,
processing instructions and the document type are passed over. A text loses the white
space at its ends, and is dropped if nothing is left. -/
namespace ContextPolicy.Xml

structure Attribute where
  name : List Char
  value : List Char
deriving DecidableEq, Repr

inductive Token where
  | open (name : List Char) (attributes : List Attribute)
  | close (name : List Char)
  | text (value : List Char)
deriving DecidableEq, Repr

/-- A start tag that is not complete, its last attribute in front. -/
structure Tag where
  name : List Char
  attributes : List Attribute
deriving DecidableEq, Repr

/-- What the characters read last belong to. Characters stand in reverse. -/
inductive Lexer where
  | text (cs : List Char)
  /-- Behind `<`. -/
  | markup
  | endTag (cs : List Char)
  | tagName (cs : List Char)
  /-- Between the attributes of a tag; `spaced` if white space stood in front. -/
  | inTag (tag : Tag) (spaced : Bool)
  | key (tag : Tag) (cs : List Char)
  /-- Behind the name of an attribute, up to its value. -/
  | equals (tag : Tag) (name : List Char) (seen : Bool)
  | value (tag : Tag) (name : List Char) (quote : Char) (cs : List Char)
  /-- Behind the slash at the end of a tag. -/
  | emptyTag (tag : Tag)
  /-- Behind `<?`; `marked` behind a further question mark. -/
  | instruction (marked : Bool)
  /-- Behind `<!`, until it is clear what follows. -/
  | declaration (cs : List Char)
  | comment (dashes : Nat)
  /-- Text that is taken as it stands. -/
  | verbatim (cs : List Char)
  /-- Inside the document type, with the number of its declarations that are open. -/
  | doctype (depth : Nat)
deriving DecidableEq, Repr

namespace Lexer

def isBlank (c : Char) : Bool :=
  c = ' ' || c = '\t' || c = '\n' || c = '\r'

/-- A text that was read up to a tag. -/
def textTokens (cs : List Char) : Option (List Token) :=
  let trimmed := (cs.dropWhile isBlank).reverse.dropWhile isBlank
  if trimmed = [] then some [] else (unescape trimmed).map ([.text ·])

def openToken (tag : Tag) : Token :=
  .open tag.name tag.attributes.reverse

/-- A tag with one more attribute, of a name that it does not have yet. -/
def addAttribute (tag : Tag) (name cs : List Char) : Option Tag :=
  if tag.attributes.any (·.name == name) then none
  else (unescape cs.reverse).map fun v => { tag with attributes := ⟨name, v⟩ :: tag.attributes }

/-- A character between the attributes of a tag. -/
def tagStep (tag : Tag) (spaced : Bool) (c : Char) : Option (Lexer × List Token) :=
  if isBlank c then some (inTag tag true, [])
  else if c = '>' then some (text [], [openToken tag])
  else if c = '/' then some (emptyTag tag, [])
  else if spaced ∧ c ∉ ['=', '<', '"', '\'', '&'] then some (key tag [c], [])
  else none

/-- A character behind `<!`, after those in `cs`. -/
def declarationStep (cs : List Char) (c : Char) : Option (Lexer × List Token) :=
  let seen := cs ++ [c]
  if seen = "--".toList then some (comment 0, [])
  else if seen = "[CDATA[".toList then some (verbatim [], [])
  else if seen = "DOCTYPE".toList then some (doctype 0, [])
  else if ["--", "[CDATA[", "DOCTYPE"].any (seen.isPrefixOf ·.toList) then
    some (declaration seen, [])
  else none

/-- The lexer after a character, and the tokens that end with it. -/
def step : Lexer → Char → Option (Lexer × List Token)
  | text cs, c =>
    if c = '<' then (textTokens cs).map (markup, ·) else some (text (c :: cs), [])
  | markup, c =>
    if c = '/' then some (endTag [], [])
    else if c = '?' then some (instruction false, [])
    else if c = '!' then some (declaration [], [])
    else if isBlank c ∨ c = '>' then none
    else some (tagName [c], [])
  | endTag cs, c =>
    if c = '>' then some (text [], [.close (cs.dropWhile isBlank).reverse])
    else some (endTag (c :: cs), [])
  | tagName cs, c =>
    if isBlank c ∨ c = '>' ∨ c = '/' then tagStep ⟨cs.reverse, []⟩ false c
    else some (tagName (c :: cs), [])
  | inTag tag spaced, c => tagStep tag spaced c
  | key tag cs, c =>
    if c = '=' then some (equals tag cs.reverse true, [])
    else if isBlank c then some (equals tag cs.reverse false, [])
    else if c = '>' ∨ c = '/' then none
    else some (key tag (c :: cs), [])
  | equals tag name seen, c =>
    if isBlank c then some (equals tag name seen, [])
    else if seen ∧ (c = '"' ∨ c = '\'') then some (value tag name c [], [])
    else if !seen ∧ c = '=' then some (equals tag name true, [])
    else none
  | value tag name quote cs, c =>
    if c = quote then (addAttribute tag name cs).map fun tag => (inTag tag false, [])
    else some (value tag name quote (c :: cs), [])
  | emptyTag tag, c =>
    if c = '>' then some (text [], [openToken tag, .close tag.name]) else none
  | instruction marked, c =>
    if marked ∧ c = '>' then some (text [], []) else some (instruction (c = '?'), [])
  | declaration cs, c => declarationStep cs c
  | comment dashes, c =>
    if c = '-' then some (comment (dashes + 1), [])
    else if c = '>' ∧ 2 ≤ dashes then some (text [], [])
    else some (comment 0, [])
  | verbatim cs, c =>
    if c = '>' ∧ cs.take 2 = [']', ']'] then some (text [], [.text (cs.drop 2).reverse])
    else some (verbatim (c :: cs), [])
  | doctype depth, c =>
    if c = '<' then some (doctype (depth + 1), [])
    else if c = '>' then some (if depth = 0 then text [] else doctype (depth - 1), [])
    else some (doctype depth, [])

/-- The tokens that the end of a document completes. -/
def finish : Lexer → Option (List Token)
  | text cs => textTokens cs
  | _ => none

def run (l : Lexer) : List Char → Option (List Token)
  | [] => l.finish
  | c :: rest => do
    let (next, tokens) ← l.step c
    (tokens ++ ·) <$> run next rest

end Lexer

def tokens (cs : List Char) : Option (List Token) :=
  (Lexer.text []).run cs

end ContextPolicy.Xml
