import ContextPolicy.Term
import ContextPolicy.Text.Quoted

/-! The written form of a term, which is the one that the canonical text and the ASK
queries use: an IRI between angle brackets, a label after `_:`, a value between quotes
with its tag behind it. A value that holds a line feed stands between triple quotes and
keeps its line feeds; all other characters that a quote must not hold are escaped. -/
namespace ContextPolicy.Term

/-- A character inside quotes; `long` are the triple ones. -/
def escapeChar (long : Bool) (c : Char) : List Char :=
  if c = '\\' then ['\\', '\\']
  else if c = '"' then ['\\', '"']
  else if c = '\n' then (if long then ['\n'] else ['\\', 'n'])
  else if c = '\r' then ['\\', 'r']
  else if c = '\t' then ['\\', 't']
  else [c]

def escape (long : Bool) (value : List Char) : List Char :=
  value.flatMap (escapeChar long)

/-- The quotes that a value stands between. -/
def quotes (value : List Char) : List Char :=
  if '\n' ∈ value then ['"', '"', '"'] else ['"']

def writtenValue (value : List Char) : List Char :=
  quotes value ++ escape (decide ('\n' ∈ value)) value ++ quotes value

/-- The tag of a literal; a language hides a datatype. -/
def writtenTag : Option String → Option String → List Char
  | _, some lang => '@' :: lang.toList
  | some datatype, none => ['^', '^', '<'] ++ datatype.toList ++ ['>']
  | none, none => []

def written : Term → List Char
  | named iri => '<' :: iri.toList ++ ['>']
  | blank label => '_' :: ':' :: label.toList
  | literal value datatype lang => writtenValue value.toList ++ writtenTag datatype lang

def toText (t : Term) : String :=
  String.ofList t.written

/-! ### Terms in messages -/

/-- An optional text in a message. -/
def shownOption : Option String → String
  | none => "None"
  | some text => "Some(" ++ Text.quoted text ++ ")"

/-- A term part by part, for messages about terms that have no written form. -/
def shown : Term → String
  | named iri => "Named \x7b iri: " ++ Text.quoted iri ++ " \x7d"
  | blank label => "Blank \x7b id: " ++ Text.quoted label ++ " \x7d"
  | literal value datatype lang =>
    "Literal \x7b val: " ++ Text.quoted value ++ ", datatype: " ++ shownOption datatype ++
      ", lang: " ++ shownOption lang ++ " \x7d"

end ContextPolicy.Term
