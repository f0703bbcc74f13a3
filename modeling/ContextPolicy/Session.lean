import ContextPolicy.Condition.Compile
import ContextPolicy.Condition.Extract
import ContextPolicy.Document
import ContextPolicy.Graph.Describe
import ContextPolicy.RdfXml.Writer
import ContextPolicy.Settings

/-! One policy under edit. The graph is what counts; its text and the facts of its
condition are read off it and written back into it. Putting facts in replaces the condition
that was there, with all that hangs off its blank nodes, and touches nothing else. What can
fail says beside its answer which session it leaves. -/
namespace ContextPolicy

/-! ### Labels -/

/-- The first `count` labels for conditions that are not taken. -/
def freshLabels (taken : List String) (count : Nat) : List String :=
  (((List.range (taken.length + count)).map conditionLabel).filter (· ∉ taken)).take count

/-- The labels of blank nodes in the order in which they first occur. -/
def labelsOf (ts : List Triple) : List String :=
  (ts.flatMap fun t => [t.subject, t.object].filterMap Term.label?).eraseDups

def renameBlank (names : List (String × String)) : Term → Term
  | .blank label => .blank ((names.lookup label).getD label)
  | t => t

/-- The triples with labels that are not taken: each label gets the next free one, in the
order of their first occurrence. -/
def relabel (taken : List String) (ts : List Triple) : List Triple :=
  let labels := labelsOf ts
  ts.map (Triple.mapNodes (renameBlank (labels.zip (freshLabels taken labels.length))))

/-! ### The condition in a graph -/

namespace Scheme

/-- The blank nodes that the root is linked to. -/
def blockNodes (s : Scheme) (g : Graph) : List Term :=
  ((g.triples.filter s.isLink).map (·.object)).filter Term.isBlank

/-- The indices of the condition's triples: its type, its links, and the descriptions of
the blank nodes that these lead to. -/
def conditionIndices (s : Scheme) (g : Graph) : List Nat :=
  let nodes := g.reach [] (s.blockNodes g)
  (g.entries.filter fun (_, t) =>
    t == s.typing || s.isLink t || t.subject ∈ nodes).map (·.1)

end Scheme

/-! ### Sessions -/

/-- Why facts were not put into a session. -/
inductive ApplyFault where
  | invalid (fault : ValidationFault)
  | notFound (fault : NotFound)
deriving DecidableEq, Repr

structure Session where
  graph : Graph
  prefixes : Prefixes
  scheme : Scheme
  /-- How texts are read. -/
  reader : String → Except SyntaxFault (List Triple)

namespace Session

def ofSettings (s : Settings) : Session :=
  ⟨∅, s.prefixes, s.scheme, s.format.read s.base⟩

def default : Session :=
  ofSettings .default

def withReader (s : Session) (reader : String → Except SyntaxFault (List Triple)) : Session :=
  { s with reader }

/-! ### Text -/

def text (s : Session) : String :=
  Document.toText s.prefixes s.graph.triples

/-- The document that a formatter makes of the triples. -/
def exportXml (s : Session) (f : RdfXml.Formatter) : Except RdfXml.ExportFault String :=
  f.write s.graph.triples

/-- The document that the formatter of this library makes of the triples. -/
def rdfXml (s : Session) : String :=
  RdfXml.document s.graph.triples

/-- Puts the triples of a text in the place of the session's own, and answers with their number.
A text that cannot be read leaves the session as it is. -/
def loadInPlace (s : Session) (text : String) : Change SyntaxFault Nat Session :=
  match s.reader text with
  | .error fault => (.error fault, s)
  | .ok ts =>
    let graph := Graph.ofTriples ts
    (.ok graph.size, { s with graph })

/-- The session with the triples of a text in place of its own. -/
def load (s : Session) (text : String) : Except SyntaxFault Session :=
  (s.loadInPlace text).settled.map (·.2)

/-! ### Facts -/

def facts (s : Session) : Except ListFault Facts :=
  s.scheme.extract s.graph

/-- Puts the condition for facts in the place of the one that is there, and answers how many
triples it took. The facts are compiled first, then the old condition is removed. -/
def applyInPlace (s : Session) (facts : Facts) : Change ApplyFault Nat Session :=
  match s.scheme.compile facts with
  | .error fault => (.error (.invalid fault), s)
  | .ok ts =>
    match s.graph.removeAllInPlace (s.scheme.conditionIndices s.graph) with
    | (.error fault, graph) => (.error (.notFound fault), { s with graph })
    | (.ok _, g) => (.ok ts.length, { s with graph := g.addAll (relabel g.blankLabels ts) })

/-- How many triples the facts took, and the session with the condition for them. -/
def apply (s : Session) (facts : Facts) : Except ApplyFault (Nat × Session) :=
  (s.applyInPlace facts).settled

/-! ### Single triples -/

/-- The index of a new triple, and the session with it. -/
def add (s : Session) (t : Triple) : Nat × Session :=
  let (i, graph) := s.graph.push t
  (i, { s with graph })

def removeInPlace (s : Session) (i : Nat) : Change NotFound Triple Session :=
  let (answer, graph) := s.graph.removeInPlace i
  (answer, { s with graph })

def remove (s : Session) (i : Nat) : Except NotFound (Triple × Session) :=
  (s.removeInPlace i).settled

end Session

end ContextPolicy
