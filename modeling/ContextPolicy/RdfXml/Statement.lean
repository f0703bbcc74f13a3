import ContextPolicy.Triple

/-! What documents in RDF/XML are written from and read as.

Formatters and parsers deal in statements, whose subjects are no literals and whose literals
have one tag at most. A triple is a statement unless its subject is a literal, and of two tags it
keeps the language. Neither formatters nor parsers are part of this: a formatter is any three
operations that take statements one after the other and end with a document, a parser is
whatever reports the statements of a document, and each call to them may fail. -/
namespace ContextPolicy.RdfXml

/-! ### Statements -/

inductive Node where
  | named (iri : String)
  | blank (label : String)
deriving DecidableEq, Repr

inductive Value where
  | node (n : Node)
  | plain (value : String)
  | tagged (value lang : String)
  | typed (value datatype : String)
deriving DecidableEq, Repr

structure Statement where
  subject : Node
  predicate : String
  object : Value
deriving DecidableEq, Repr

def Node.ofTerm? : Term → Option Node
  | .named iri => some (.named iri)
  | .blank label => some (.blank label)
  | .literal .. => none

def Node.toTerm : Node → Term
  | named iri => .named iri
  | blank label => .blank label

/-- A language hides a datatype. -/
def Value.ofTerm : Term → Value
  | .named iri => node (.named iri)
  | .blank label => node (.blank label)
  | .literal value _ (some lang) => tagged value lang
  | .literal value (some datatype) none => typed value datatype
  | .literal value none none => plain value

def Value.toTerm : Value → Term
  | node n => n.toTerm
  | plain value => .plain value
  | tagged value lang => .tagged value lang
  | typed value datatype => .typed value datatype

def Statement.ofTriple? (t : Triple) : Option Statement :=
  (Node.ofTerm? t.subject).map fun subject => ⟨subject, t.predicate, .ofTerm t.object⟩

def Statement.toTriple (st : Statement) : Triple :=
  ⟨st.subject.toTerm, st.predicate, st.object.toTerm⟩

theorem Statement.ofTriple?_toTriple (st : Statement) : ofTriple? st.toTriple = some st := by
  obtain ⟨subject, predicate, object⟩ := st
  cases subject with
  | named iri | blank label =>
    cases object with
    | node n => cases n <;> rfl
    | plain value | tagged value lang | typed value datatype => rfl

/-! ### Formatters and parsers -/

/-- Why a document could not be written. -/
structure ExportFault where
  detail : String
deriving DecidableEq, Repr

def ExportFault.message (e : ExportFault) : String :=
  "rdf/xml export failed: " ++ e.detail

structure Formatter where
  /-- What the formatter keeps between two statements. -/
  State : Type
  start : Except ExportFault State
  format : State → Statement → Except ExportFault State
  finish : State → Except ExportFault String

namespace Formatter
variable (f : Formatter)

/-- A triple that is no statement is passed over. -/
def formatTriple (x : f.State) (t : Triple) : Except ExportFault f.State :=
  match Statement.ofTriple? t with
  | some st => f.format x st
  | none => .ok x

/-- The document for triples, up to the first fault of the formatter. -/
def write (ts : List Triple) : Except ExportFault String := do
  let x ← f.start
  let x ← ts.foldlM f.formatTriple x
  f.finish x

end Formatter

/-- A parser reports the statements of a text, in which references are resolved against a base,
or what it could not read. -/
abbrev Parser : Type :=
  (base text : String) → Except String (List Statement)

end ContextPolicy.RdfXml
