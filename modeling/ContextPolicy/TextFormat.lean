import ContextPolicy.RdfXml.Reader
import ContextPolicy.Turtle.Reader

/-! The formats that triples are read from. -/
namespace ContextPolicy

/-- A text that does not follow its format, with the place in bytes if it is known. -/
structure SyntaxFault where
  detail : String
  position : Option Nat
deriving DecidableEq, Repr

def SyntaxFault.message (e : SyntaxFault) : String :=
  let place := match e.position with
    | none => ""
    | some n => " at byte " ++ toString n
  "syntax error" ++ place ++ ": " ++ e.detail

/-- All triples that a parser reports of a text, or none. -/
def RdfXml.Parser.read (p : RdfXml.Parser) (base text : String) :
    Except SyntaxFault (List Triple) :=
  match p base text with
  | .ok sts => .ok (sts.map Statement.toTriple)
  | .error detail => .error ⟨detail, none⟩

inductive TextFormat where
  | turtle
  | rdfXml
deriving DecidableEq, Repr

namespace TextFormat

def name : TextFormat → String
  | turtle => "turtle"
  | rdfXml => "rdf-xml"

def ofName? (name : String) : Option TextFormat :=
  [turtle, rdfXml].find? fun f => f.name == name

/-- All triples of a text, or none. -/
def read (f : TextFormat) (base text : String) : Except SyntaxFault (List Triple) :=
  match f with
  | turtle =>
    match Turtle.read base text with
    | some ts => .ok ts
    | none => .error ⟨"not a turtle document", none⟩
  | rdfXml => RdfXml.Parser.plain.read base text

end TextFormat

end ContextPolicy
