import ContextPolicy.Graph.Chain
import ContextPolicy.Iri
import ContextPolicy.RdfXml.Statement
import ContextPolicy.Term.Generated
import ContextPolicy.Text.NameChars
import ContextPolicy.Xml.Lexer

/-! The triples of an RDF/XML document. Elements for nodes and elements for properties
stand in turns inside each other; a stack holds those that are open, each with the base,
the language and the namespaces that hold inside it. Nothing of a document counts unless
all of it can be read. -/
namespace ContextPolicy.RdfXml

/-! ### Names in their scope -/

/-- What holds inside an element. -/
structure Scope where
  base : Iri.Base
  lang : Option String
  /-- The namespaces, each behind its prefix; the empty prefix stands for none. -/
  spaces : List (List Char × List Char)
deriving Repr

namespace Scope

/-- What an attribute changes in the scope of its element. -/
def extend (s : Scope) (a : Xml.Attribute) : Option Scope :=
  if a.name = "xml:lang".toList then
    some { s with lang := if a.value = [] then none else some (String.ofList a.value) }
  else if a.name = "xml:base".toList then do
    let base ← Iri.Base.ofText (← s.base.resolve a.value)
    pure { s with base }
  else if a.name = "xmlns".toList then some { s with spaces := ([], a.value) :: s.spaces }
  else if "xmlns:".toList.isPrefixOf a.name then
    some { s with spaces := (a.name.drop 6, a.value) :: s.spaces }
  else some s

/-- The IRI that an element's name stands for: its namespace and what follows the colon. -/
def elementName (s : Scope) (name : List Char) : Option String :=
  match name.span (· != ':') with
  | (space, ':' :: part) => (s.spaces.lookup space).map fun iri => String.ofList (iri ++ part)
  | (part, _) => (s.spaces.lookup []).map fun iri => String.ofList (iri ++ part)

/-- The IRI that an attribute's name stands for, which has to have a prefix. -/
def attributeName (s : Scope) (name : List Char) : Option String :=
  if ':' ∈ name then s.elementName name else none

def resolve (s : Scope) (reference : List Char) : Option String :=
  (s.base.resolve reference).map String.ofList

end Scope

/-! ### Attributes -/

/-- How an element was asked to be read. -/
inductive ParseType where
  | resource
  | collection
deriving DecidableEq, Repr

/-- What the attributes of an element say. -/
structure Marks where
  id : Option String
  nodeId : Option String
  about : Option String
  resource : Option String
  datatype : Option String
  parseType : Option ParseType
  type : Option String
  /-- Properties with a literal value. -/
  properties : List (String × String)
deriving Repr

namespace Marks

def empty : Marks :=
  ⟨none, none, none, none, none, none, none, []⟩

/-- Names that no attribute may have. -/
def reserved : List String :=
  open Names in
  [Rdf.document, Rdf.description, Rdf.item, Rdf.aboutEach, Rdf.aboutEachPrefix, Rdf.bagId]

def readParseType (value : List Char) : Option ParseType :=
  if value = "Resource".toList then some .resource
  else if value = "Collection".toList then some .collection
  else none

/-- Adds an attribute whose name stands for an IRI. -/
def addNamed (m : Marks) (s : Scope) (name : String) (value : List Char) : Option Marks :=
  if name = Names.Rdf.id then
    if Text.isUncolonedName value then
      (s.resolve ('#' :: value)).map fun iri => { m with id := some iri }
    else none
  else if name = Names.Rdf.nodeId then
    if Text.isUncolonedName value then some { m with nodeId := some (String.ofList value) } else none
  else if name = Names.Rdf.about then
    (s.resolve value).map fun iri => { m with about := some iri }
  else if name = Names.Rdf.resource then
    (s.resolve value).map fun iri => { m with resource := some iri }
  else if name = Names.Rdf.datatype then
    (s.resolve value).map fun iri => { m with datatype := some iri }
  else if name = Names.Rdf.type then
    (s.resolve value).map fun iri => { m with type := some iri }
  else if name = Names.Rdf.parseType then
    (readParseType value).map fun p => { m with parseType := some p }
  else if name ∈ reserved then none
  else some { m with properties := m.properties ++ [(name, String.ofList value)] }

/-- Adds an attribute; those of XML itself only concern the scope. -/
def add (m : Marks) (s : Scope) (a : Xml.Attribute) : Option Marks :=
  if "xml".toList.isPrefixOf a.name then some m
  else (s.attributeName a.name).bind fun name => m.addNamed s name a.value

def ofAttributes (s : Scope) (attributes : List Xml.Attribute) : Option Marks :=
  attributes.foldlM (fun m a => m.add s a) empty

end Marks

/-! ### Open elements -/

/-- What has been read of the value of a property. -/
inductive Content where
  | empty
  | text (value : List Char)
  | node (t : Term)
deriving DecidableEq, Repr

/-- What the elements inside an element are. -/
inductive Level where
  | document
  /-- A node, and how many numbered properties it has. -/
  | node (subject : Term) (items : Nat)
  | property (subject : Term) (predicate : String) (content : Content)
    (datatype id : Option String)
  /-- A property whose value is the list of the nodes inside, the last one in front. -/
  | collection (subject : Term) (predicate : String) (members : List Term) (id : Option String)
deriving DecidableEq, Repr

structure Element where
  name : List Char
  scope : Scope
  level : Level
deriving Repr

structure Reader where
  base : Iri.Base
  /-- How many blank nodes have been given labels. -/
  generated : Nat
  /-- The triples, the last one in front. -/
  found : List Triple
  /-- The IRIs that were given as an `rdf:ID`. -/
  ids : List String
  elements : List Element
  /-- Whether the outermost element has been closed. -/
  isComplete : Bool
deriving Repr

namespace Reader

def start (base : Iri.Base) : Reader :=
  ⟨base, 0, [], [], [], false⟩

/-- The scope of the innermost open element. -/
def scope (r : Reader) : Scope :=
  match r.elements with
  | [] => ⟨r.base, none, []⟩
  | e :: _ => e.scope

def fresh (r : Reader) : Term × Reader :=
  (.generated (r.generated + 1), { r with generated := r.generated + 1 })

def emit (r : Reader) (t : Triple) : Reader :=
  { r with found := t :: r.found }

def push (r : Reader) (name : List Char) (scope : Scope) (level : Level) : Reader :=
  { r with elements := ⟨name, scope, level⟩ :: r.elements }

def literal (value : String) (datatype lang : Option String) : Term :=
  .literal value datatype (if datatype.isSome then none else lang)

/-- The triples for the attributes of a node. -/
def describe (r : Reader) (s : Scope) (m : Marks) (node : Term) : Reader :=
  let r := m.properties.foldl (fun r (name, value) =>
    r.emit ⟨node, name, literal value none s.lang⟩) r
  match m.type with
  | none => r
  | some type => r.emit ⟨node, Names.Rdf.type, .named type⟩

/-- A property's triple and, in front of it if it has a name, the triples that describe it. -/
def state (r : Reader) (t : Triple) : Option String → Reader
  | none => r.emit t
  | some id =>
    [⟨.named id, Names.Rdf.type, .named Names.Rdf.statement⟩,
      ⟨.named id, Names.Rdf.subject, t.subject⟩,
      ⟨.named id, Names.Rdf.predicate, .named t.predicate⟩,
      ⟨.named id, Names.Rdf.object, t.object⟩, t].foldl emit r

/-! ### Start tags -/

/-- Names that no element may have, that of lists' items apart. -/
def reserved : List String :=
  open Names in
  [Rdf.document, Rdf.id, Rdf.about, Rdf.bagId, Rdf.parseType, Rdf.resource, Rdf.nodeId,
    Rdf.datatype, Rdf.aboutEach, Rdf.aboutEachPrefix]

/-- The node that a node element stands for; it takes a label off the supply even where it
does not need one. -/
def subject (r : Reader) (m : Marks) : Option (Term × Reader) :=
  let (blank, r) := r.fresh
  match m.id, m.nodeId, m.about with
  | none, none, none => some (blank, r)
  | some iri, none, none | none, none, some iri => some (.named iri, r)
  | none, some label, none => some (.blank label, r)
  | _, _, _ => none

def openNode (r : Reader) (name : List Char) (s : Scope) (m : Marks) (type : String) :
    Option Reader :=
  if type ∈ reserved ∨ type = Names.Rdf.item then none
  else if m.resource.isSome || m.datatype.isSome || m.parseType.isSome then none
  else do
    let (subject, r) ← r.subject m
    let r := r.describe s m subject
    let r := if type = Names.Rdf.description then r
      else r.emit ⟨subject, Names.Rdf.type, .named type⟩
    pure (r.push name s (.node subject 0))

/-- The node that the attributes of a property element give as its value. -/
def givenObject (r : Reader) (s : Scope) (m : Marks) : Option (Content × Reader) :=
  if m.resource.isNone && m.nodeId.isNone && m.type.isNone && m.properties.isEmpty then
    some (.empty, r)
  else do
    let (object, r) ← match m.resource, m.nodeId with
      | some iri, none => some (.named iri, r)
      | none, some label => some (.blank label, r)
      | none, none => some r.fresh
      | some _, some _ => none
    pure (.node object, r.describe s m object)

def openProperty (r : Reader) (name : List Char) (s : Scope) (m : Marks) (subject : Term)
    (predicate : String) : Option Reader :=
  if predicate ∈ reserved ∨ predicate = Names.Rdf.description ∨ m.about.isSome then none
  else
    match m.parseType with
    | none => do
      let (content, r) ← r.givenObject s m
      pure (r.push name s (.property subject predicate content m.datatype m.id))
    | some parseType =>
      if m.resource.isSome || m.nodeId.isSome || m.datatype.isSome || m.type.isSome
          || !m.properties.isEmpty then none
      else
        match parseType with
        | .resource =>
          let (object, r) := r.fresh
          some ((r.state ⟨subject, predicate, object⟩ m.id).push name s (.node object 0))
        | .collection => some (r.push name s (.collection subject predicate [] m.id))

/-- Notes an `rdf:ID`, which must be new. -/
def noteId (r : Reader) : Option String → Option Reader
  | none => some r
  | some id => if id ∈ r.ids then none else some { r with ids := id :: r.ids }

/-- The number of a numbered property, and the reader after it. -/
def nextItem (r : Reader) : Nat × Reader :=
  match r.elements with
  | ⟨name, scope, .node subject items⟩ :: outer =>
    (items + 1, { r with elements := ⟨name, scope, .node subject (items + 1)⟩ :: outer })
  | _ => (0, r)

def openTag (r : Reader) (name : List Char) (attributes : List Xml.Attribute) :
    Option Reader := do
  let s ← attributes.foldlM Scope.extend r.scope
  let m ← Marks.ofAttributes s attributes
  let r ← r.noteId m.id
  let iri ← s.elementName name
  let levels : List Level := r.elements.map Element.level
  match levels with
  | [] =>
    if r.isComplete then none
    else if iri = Names.Rdf.document then pure (r.push name s .document)
    else r.openNode name s m iri
  | .document :: _ | .property _ _ .empty _ _ :: _ | .collection .. :: _ =>
    r.openNode name s m iri
  | .node subject _ :: _ =>
    if iri = Names.Rdf.item then
      let (n, r) := r.nextItem
      r.openProperty name s m subject (Names.Rdf.member n)
    else r.openProperty name s m subject iri
  | .property .. :: _ => none

/-! ### End tags and texts -/

/-- Tells the innermost element about a node inside it. -/
def addNode (r : Reader) (node : Term) : Reader :=
  match r.elements with
  | ⟨name, scope, .property s p _ datatype id⟩ :: outer =>
    { r with elements := ⟨name, scope, .property s p (.node node) datatype id⟩ :: outer }
  | ⟨name, scope, .collection s p members id⟩ :: outer =>
    { r with elements := ⟨name, scope, .collection s p (node :: members) id⟩ :: outer }
  | _ => r

/-- The cells of a list, from its last member to its first. -/
def addCells (r : Reader) (rest : Term) : List Term → Term × Reader
  | [] => (rest, r)
  | member :: before =>
    let (cell, r) := r.fresh
    let r := (r.emit ⟨cell, Names.Rdf.first, member⟩).emit ⟨cell, Names.Rdf.rest, rest⟩
    r.addCells cell before

/-- The value of a property that has been read. -/
def object (s : Scope) (datatype : Option String) : Content → Term
  | .empty => literal "" datatype s.lang
  | .text value => literal (String.ofList value) datatype s.lang
  | .node t => t

/-- What the end of an element adds. -/
def close (r : Reader) (s : Scope) : Level → Reader
  | .document => r
  | .node subject _ => r.addNode subject
  | .property subject predicate content datatype id =>
    r.state ⟨subject, predicate, object s datatype content⟩ id
  | .collection subject predicate members id =>
    let (head, r) := r.addCells Chain.nil members
    r.state ⟨subject, predicate, head⟩ id

def closeTag (r : Reader) (name : List Char) : Option Reader :=
  match r.elements with
  | [] => none
  | e :: outer =>
    if e.name = name then
      some ({ r with elements := outer, isComplete := outer.isEmpty }.close e.scope e.level)
    else none

def text (r : Reader) (value : List Char) : Option Reader :=
  match r.elements with
  | ⟨name, scope, .property s p .empty datatype id⟩ :: outer =>
    some { r with elements := ⟨name, scope, .property s p (.text value) datatype id⟩ :: outer }
  | ⟨name, scope, .property s p (.text before) datatype id⟩ :: outer =>
    let content := .text (before ++ value)
    some { r with elements := ⟨name, scope, .property s p content datatype id⟩ :: outer }
  | _ => none

/-! ### Documents -/

def step (r : Reader) : Xml.Token → Option Reader
  | .open name attributes => r.openTag name attributes
  | .close name => r.closeTag name
  | .text value => r.text value

def run (r : Reader) : List Xml.Token → Option Reader
  | [] => some r
  | t :: rest => (r.step t).bind fun r => r.run rest

/-- The triples in order, at the end of a document. -/
def finish (r : Reader) : Option (List Triple) :=
  if r.elements.isEmpty then some r.found.reverse else none

end Reader

/-- The triples of a document, whose references are resolved against a base. -/
def read (base document : String) : Option (List Triple) := do
  let base ← Iri.Base.ofText base.toList
  let tokens ← Xml.tokens document.toList
  ((Reader.start base).run tokens).bind Reader.finish

/-- The parser that reports what `read` finds. -/
def Parser.plain : Parser := fun base text =>
  match read base text with
  | some ts => .ok (ts.filterMap Statement.ofTriple?)
  | none => .error "not a rdf-xml document"

end ContextPolicy.RdfXml
