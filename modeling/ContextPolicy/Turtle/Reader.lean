import ContextPolicy.Graph.Chain
import ContextPolicy.Iri
import ContextPolicy.Term.Generated
import ContextPolicy.Turtle.Phrase

/-! The triples of a Turtle text, in the order in which they become complete: what stands
inside brackets or a list comes before the triple that it is the object of. A stack holds
the subjects and lists that are still open, and each phrase is taken for what the innermost
of them waits for. Nothing of a text counts unless all of it can be read. -/
namespace ContextPolicy

namespace Turtle

/-- A subject or a list that is still open. -/
inductive Level where
  /-- A subject, in brackets or not, and the predicate whose objects are read. -/
  | subject (node : Term) (bracketed : Bool) (predicate : Option String)
  /-- A list with its first and its last cell, once it has any. -/
  | list (cells : Option (Term × Term))
deriving DecidableEq, Repr

/-- What may come next. -/
inductive Expected where
  | statement
  | predicate
  /-- A predicate, or the end of a subject that needs none. -/
  | predicateOrEnd
  /-- Behind a semicolon: also another one. -/
  | predicateOrMore
  | object
  /-- Behind an object. -/
  | separator
  | member
deriving DecidableEq, Repr

structure Reader where
  base : Iri.Base
  /-- What the prefixes stand for, the last declared in front. -/
  spaces : List (List Char × List Char)
  /-- How many blank nodes have been given labels. -/
  generated : Nat
  /-- The triples, the last one in front. -/
  found : List Triple
  levels : List Level
  expected : Expected
deriving Repr

namespace Reader

def start (base : Iri.Base) : Reader :=
  ⟨base, [], 0, [], [], .statement⟩

/-! ### IRIs -/

def resolve (r : Reader) : Ref → Option String
  | .reference text => (r.base.resolve text).map String.ofList
  | .name space part => (r.spaces.lookup space).map fun iri => String.ofList (iri ++ part)

def declare (r : Reader) (space reference : List Char) : Option Reader := do
  let iri ← r.base.resolve reference
  pure { r with spaces := (space, iri) :: r.spaces }

def rebase (r : Reader) (reference : List Char) : Option Reader := do
  let base ← Iri.Base.ofText (← r.base.resolve reference)
  pure { r with base }

/-! ### Nodes -/

/-- A blank node with a label of its own. -/
def fresh (r : Reader) : Term × Reader :=
  (.generated (r.generated + 1), { r with generated := r.generated + 1 })

def emit (r : Reader) (t : Triple) : Reader :=
  { r with found := t :: r.found }

/-- Before a node is read: a list gets a cell for it. -/
def beginNode (r : Reader) : Option Reader :=
  match r.expected, r.levels with
  | .statement, [] => some r
  | .object, _ => some r
  | .member, .list none :: outer =>
    let (cell, r) := r.fresh
    some { r with levels := .list (some (cell, cell)) :: outer }
  | .member, .list (some (head, last)) :: outer =>
    let (cell, r) := r.fresh
    let r := r.emit ⟨last, Names.Rdf.rest, cell⟩
    some { r with levels := .list (some (head, cell)) :: outer }
  | _, _ => none

/-- After a node has been read: it is a subject, an object or a member. -/
def endNode (r : Reader) (node : Term) : Option Reader :=
  match r.levels with
  | [] =>
    if node.isLiteral then none
    else some { r with levels := [.subject node false none], expected := .predicate }
  | .subject s _ (some p) :: _ => some { r.emit ⟨s, p, node⟩ with expected := .separator }
  | .list (some (_, cell)) :: _ =>
    some { r.emit ⟨cell, Names.Rdf.first, node⟩ with expected := .member }
  | _ => none

def node (r : Reader) (t : Term) : Option Reader :=
  r.beginNode.bind fun r => r.endNode t

/-! ### Subjects and lists -/

def predicate (r : Reader) (iri : String) : Option Reader :=
  match r.expected, r.levels with
  | .predicate, .subject s b _ :: outer
  | .predicateOrEnd, .subject s b _ :: outer
  | .predicateOrMore, .subject s b _ :: outer =>
    some { r with levels := .subject s b (some iri) :: outer, expected := .object }
  | _, _ => none

/-- An IRI, which is a predicate or a node. -/
def iri (r : Reader) (iri : String) : Option Reader :=
  (r.predicate iri).or (r.node (.named iri))

/-- Whether a subject may end where something is expected. -/
def mayEnd : Expected → Bool
  | .separator | .predicateOrEnd | .predicateOrMore => true
  | _ => false

def openBracket (r : Reader) : Option Reader := do
  let (node, r) := (← r.beginNode).fresh
  pure { r with levels := .subject node true none :: r.levels, expected := .predicateOrEnd }

/-- A subject in brackets is a node as a whole; as the subject of a statement it needs
predicates behind the brackets only if it has none inside. -/
def closeBracket (r : Reader) : Option Reader :=
  match r.levels with
  | .subject node true _ :: outer =>
    if !mayEnd r.expected then none
    else if outer = [] then
      let isEmpty := r.expected = .predicateOrEnd
      some { r with
        levels := [.subject node false none]
        expected := if isEmpty then .predicate else .predicateOrEnd }
    else { r with levels := outer }.endNode node
  | _ => none

def openList (r : Reader) : Option Reader := do
  let r ← r.beginNode
  pure { r with levels := .list none :: r.levels, expected := .member }

def closeList (r : Reader) : Option Reader :=
  match r.expected, r.levels with
  | .member, .list none :: outer => { r with levels := outer }.endNode Chain.nil
  | .member, .list (some (head, last)) :: outer =>
    { r.emit ⟨last, Names.Rdf.rest, Chain.nil⟩ with levels := outer }.endNode head
  | _, _ => none

def semicolon (r : Reader) : Option Reader :=
  match r.expected, r.levels with
  | .separator, .subject s b _ :: outer | .predicateOrMore, .subject s b _ :: outer =>
    some { r with levels := .subject s b none :: outer, expected := .predicateOrMore }
  | _, _ => none

def comma (r : Reader) : Option Reader :=
  if r.expected = .separator then some { r with expected := .object } else none

def dot (r : Reader) : Option Reader :=
  match r.levels with
  | [.subject _ false _] =>
    if mayEnd r.expected then some { r with levels := [], expected := .statement } else none
  | _ => none

def mark (r : Reader) : Mark → Option Reader
  | .dot => r.dot
  | .comma => r.comma
  | .semicolon => r.semicolon
  | .openBracket => r.openBracket
  | .closeBracket => r.closeBracket
  | .openList => r.openList
  | .closeList => r.closeList

/-! ### Texts -/

def step (r : Reader) : Phrase → Option Reader
  | .declare space reference =>
    if r.expected = .statement then r.declare space reference else none
  | .rebase reference => if r.expected = .statement then r.rebase reference else none
  | .ref ref => (r.resolve ref).bind r.iri
  | .term t => r.node t
  | .typed value ref => do
    let datatype ← r.resolve ref
    r.node (.typed (String.ofList value) datatype)
  | .isA => r.predicate Names.Rdf.type
  | .mark m => r.mark m

def run (r : Reader) : List Phrase → Option Reader
  | [] => some r
  | p :: rest => (r.step p).bind fun r => r.run rest

/-- The triples in order, at the end of a text. -/
def finish (r : Reader) : Option (List Triple) :=
  if r.expected = .statement then some r.found.reverse else none

end Reader

/-- The triples of a text, whose references are resolved against a base. -/
def read (base text : String) : Option (List Triple) := do
  let base ← Iri.Base.ofText base.toList
  let found ← phrases (← tokens text.toList)
  ((Reader.start base).run found).bind Reader.finish

end Turtle

end ContextPolicy
