import ContextPolicy.Names
import ContextPolicy.RdfXml.Statement
import ContextPolicy.Xml.Entity

/-! The RDF/XML form of statements: one description for each run of statements with the same
subject, and in it one element for each statement, whose name is the predicate as a namespace
with nothing behind it. `Formatter.plain` writes this form. -/
namespace ContextPolicy.RdfXml

/-! ### Descriptions -/

/-- What is said of a subject: predicates, each with a value. -/
structure Description where
  subject : Node
  properties : List (String × Value)
deriving DecidableEq, Repr

def Description.statements (d : Description) : List Statement :=
  d.properties.map fun p => ⟨d.subject, p.1, p.2⟩

/-- Puts a statement in front of descriptions, into the first one if that has its subject. -/
def describe (st : Statement) : List Description → List Description
  | [] => [⟨st.subject, [(st.predicate, st.object)]⟩]
  | d :: rest =>
    if d.subject = st.subject then ⟨d.subject, (st.predicate, st.object) :: d.properties⟩ :: rest
    else ⟨st.subject, [(st.predicate, st.object)]⟩ :: d :: rest

/-- The runs of statements with the same subject. -/
def descriptions (sts : List Statement) : List Description :=
  sts.foldr describe []

/-! ### Written form -/

/-- An attribute with a space in front. -/
def attributeText (name : String) (value : String) : List Char :=
  ' ' :: name.toList ++ '=' :: '"' :: Xml.escape value.toList ++ ['"']

/-- The attribute for a node, which is called `name` if the node is an IRI. -/
def nodeAttribute (name : String) : Node → List Char
  | .named iri => attributeText name iri
  | .blank label => attributeText "rdf:nodeID" label

def closeProperty : List Char :=
  "</prop:>".toList

/-- What follows the name and the namespace of an element, up to its end. -/
def valueText : Value → List Char
  | .node n => nodeAttribute "rdf:resource" n ++ ['/', '>']
  | .plain value => '>' :: Xml.escape value.toList ++ closeProperty
  | .tagged value lang =>
    attributeText "xml:lang" lang ++ '>' :: Xml.escape value.toList ++ closeProperty
  | .typed value datatype =>
    attributeText "rdf:datatype" datatype ++ '>' :: Xml.escape value.toList ++ closeProperty

/-- The element of a property. -/
def propertyText (p : String × Value) : List Char :=
  "<prop:".toList ++ attributeText "xmlns:prop" p.1 ++ valueText p.2

def openDescription (subject : Node) : List Char :=
  "<rdf:Description".toList ++ nodeAttribute "rdf:about" subject ++ ['>']

def closeDescription : List Char :=
  "</rdf:Description>".toList

def Description.text (d : Description) : List Char :=
  openDescription d.subject ++ d.properties.flatMap propertyText ++ closeDescription

def opening : List Char :=
  "<?xml version=\"1.0\"?><rdf:RDF".toList ++ attributeText "xmlns:rdf" Names.Rdf.space ++ ['>']

def closing : List Char :=
  "</rdf:RDF>".toList

/-- A document of descriptions. -/
def documentText (ds : List Description) : String :=
  String.ofList (opening ++ ds.flatMap Description.text ++ closing)

/-- The document for the triples that are statements. -/
def document (ts : List Triple) : String :=
  documentText (descriptions (ts.filterMap Statement.ofTriple?))

/-- A formatter that keeps what it is given until the end. -/
def Formatter.plain : Formatter where
  State := List Statement
  start := .ok []
  format sts st := .ok (sts ++ [st])
  finish sts := .ok (documentText (descriptions sts))

end ContextPolicy.RdfXml
