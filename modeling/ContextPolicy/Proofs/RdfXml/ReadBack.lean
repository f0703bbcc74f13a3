import ContextPolicy.Proofs.RdfXml.Lexing
import ContextPolicy.RdfXml.Reader

/-! A document is read as the statements that it was written from.

Between two tags that were written, the reader is in one of two states: it stands between the
descriptions, or inside the description of a subject (`Reader.between`, `Reader.inside`). Each
tag of a description leads from one to the other, and the element of a property adds a triple
(`Reader.run_propertyTokens`), labels included. That is so for statements that are `Portable`:
their IRIs resolve to themselves, their labels are names of XML, and XML keeps their values. -/
namespace ContextPolicy

/-! ### What documents keep -/

namespace RdfXml

section
variable (resolve : List Char → Option (List Char))

/-- An IRI that is taken as it stands, or a label that is a name. -/
def Node.Portable : Node → Prop
  | .named iri => resolve iri.toList = some iri.toList
  | .blank label => Text.isUncolonedName label.toList = true

/-- A literal has no white space at the ends of its value, and a language if it is tagged. -/
def Value.Portable : Value → Prop
  | .node n => n.Portable resolve
  | .plain value => Xml.Trimmed value.toList
  | .tagged value lang => Xml.Trimmed value.toList ∧ lang ≠ ""
  | .typed value datatype =>
    Xml.Trimmed value.toList ∧ resolve datatype.toList = some datatype.toList

/-- The predicates that elements inside a description cannot have, or not for themselves. -/
def unnamable : List String :=
  open Names in
  [Rdf.description, Rdf.item, Rdf.document, Rdf.id, Rdf.about, Rdf.bagId, Rdf.parseType,
    Rdf.resource, Rdf.nodeId, Rdf.datatype, Rdf.aboutEach, Rdf.aboutEachPrefix]

structure Statement.Portable (st : Statement) : Prop where
  subject : st.subject.Portable resolve
  predicate : st.predicate ∉ unnamable
  object : st.object.Portable resolve

structure Description.Portable (d : Description) : Prop where
  subject : d.subject.Portable resolve
  statements : ∀ st ∈ d.statements, st.Portable resolve

end

end RdfXml

namespace RdfXml

open Xml (Attribute Token)

variable {b : Iri.Base}

/-! ### Attributes -/

/-- The prefix of the names of RDF is declared. -/
def Scope.KnowsRdf (s : Scope) : Prop :=
  s.spaces.lookup "rdf".toList = some Names.Rdf.space.toList

theorem Scope.extend_lang (s : Scope) {lang : String} (h : lang ≠ "") :
    s.extend ⟨"xml:lang".toList, lang.toList⟩ = some { s with lang := some lang } := by
  have hne : lang.toList ≠ [] := fun hnil => h (String.toList_inj.mp hnil)
  show some { s with
    lang := if lang.toList = [] then none else some (String.ofList lang.toList) } = _
  rw [if_neg hne, String.ofList_toList]

section
variable {s : Scope} (h : s.KnowsRdf) (m : Marks)

include h

theorem Scope.attributeName_rdf (part : List Char) :
    s.attributeName ("rdf:".toList ++ part) =
      some (String.ofList (Names.Rdf.space.toList ++ part)) := by
  show (s.spaces.lookup "rdf".toList).map _ = _
  rw [h]
  rfl

/-- An attribute of RDF is added under its IRI. -/
theorem Marks.add_rdf (part : List Char) (value : List Char) :
    m.add s ⟨"rdf:".toList ++ part, value⟩ =
      m.addNamed s (String.ofList (Names.Rdf.space.toList ++ part)) value := by
  show (s.attributeName ("rdf:".toList ++ part)).bind _ = _
  rw [Scope.attributeName_rdf h]
  rfl

/-- An attribute whose value is the IRI of a node or of a datatype. -/
theorem Marks.add_reference (part : List Char) {mark : String → Marks} {iri : String}
    (hmark : ∀ value, m.addNamed s (String.ofList (Names.Rdf.space.toList ++ part)) value =
      (s.resolve value).map mark) (hiri : s.base.resolve iri.toList = some iri.toList) :
    m.add s ⟨"rdf:".toList ++ part, iri.toList⟩ = some (mark iri) := by
  rw [Marks.add_rdf h, hmark, Scope.resolve, hiri, Option.map_some, Option.map_some,
    String.ofList_toList]

theorem Marks.add_nodeId {label : String} (hlabel : Text.isUncolonedName label.toList = true) :
    m.add s ⟨"rdf:nodeID".toList, label.toList⟩ = some { m with nodeId := some label } := by
  have hadd : m.add s ⟨"rdf:nodeID".toList, label.toList⟩ =
      if Text.isUncolonedName label.toList then
        some { m with nodeId := some (String.ofList label.toList) }
      else none :=
    Marks.add_rdf h m "nodeID".toList label.toList
  rw [hadd, if_pos hlabel, String.ofList_toList]

end

theorem Marks.ofAttributes_singleton (s : Scope) (a : Attribute) :
    Marks.ofAttributes s [a] = Marks.empty.add s a := by
  rw [Marks.ofAttributes, List.foldlM_cons]
  exact bind_pure _

/-- The declaration of a prefix only concerns the scope. -/
theorem Marks.ofAttributes_space (s : Scope) (predicate : String) (as : List Attribute) :
    Marks.ofAttributes s (spaceAttribute predicate :: as) = Marks.ofAttributes s as :=
  rfl

/-! ### Descriptions -/

/-- What holds inside the document. -/
def documentScope (b : Iri.Base) : Scope :=
  ⟨b, none, [("rdf".toList, Names.Rdf.space.toList)]⟩

theorem knowsRdf_documentScope (b : Iri.Base) : (documentScope b).KnowsRdf :=
  rfl

namespace Reader

section
variable (r : Reader) (name : List Char) {as : List Attribute} {s : Scope} {m : Marks}
  {iri : String} (hs : as.foldlM Scope.extend r.scope = some s)
  (hm : Marks.ofAttributes s as = some m) (hid : m.id = none)
  (hname : s.elementName name = some iri)

include hs hm hid hname

/-- A start tag inside the document is that of a node. -/
theorem openTag_node {outer : List Level} (h : r.elements.map Element.level = .document :: outer) :
    r.openTag name as = r.openNode name s m iri := by
  simp only [openTag, hs, hm, hid, hname, noteId, h, Option.bind_eq_bind, Option.bind_some]

/-- A start tag inside a node is that of a property. -/
theorem openTag_property {subject : Term} {items : Nat} {outer : List Level}
    (h : r.elements.map Element.level = .node subject items :: outer)
    (hitem : iri ≠ Names.Rdf.item) :
    r.openTag name as = r.openProperty name s m subject iri := by
  simp only [openTag, hs, hm, hid, hname, noteId, h, Option.bind_eq_bind, Option.bind_some,
    if_neg hitem]

end

/-- Between two descriptions, with the triples so far, the last one in front. -/
def between (b : Iri.Base) (n : Nat) (found : List Triple) : Reader :=
  ⟨b, n, found, [], [⟨"rdf:RDF".toList, documentScope b, .document⟩], false⟩

/-- Inside the description of a subject. -/
def inside (b : Iri.Base) (n : Nat) (found : List Triple) (subject : Term) : Reader :=
  (between b n found).push "rdf:Description".toList (documentScope b) (.node subject 0)

variable {n : Nat} {found : List Triple}

theorem step_documentTag : (start b).step documentTag = some (between b 0 []) :=
  rfl

theorem step_closeDescription (subject : Term) :
    (inside b n found subject).step (.close "rdf:Description".toList) =
      some (between b n found) :=
  rfl

theorem step_descriptionTag {subject : Node} (h : subject.Portable b.resolve) :
    (between b n found).step (descriptionTag subject) =
      some (inside b (n + 1) found subject.toTerm) := by
  have hname : (documentScope b).elementName "rdf:Description".toList =
      some Names.Rdf.description :=
    rfl
  cases subject with
  | named iri =>
    have hm := Marks.add_reference (knowsRdf_documentScope b) .empty "about".toList (fun _ => rfl) h
    exact openTag_node (between b n found) _ rfl ((Marks.ofAttributes_singleton _ _).trans hm) rfl
      hname rfl
  | blank label =>
    have hm := Marks.add_nodeId (knowsRdf_documentScope b) .empty h
    exact openTag_node (between b n found) _ rfl ((Marks.ofAttributes_singleton _ _).trans hm) rfl
      hname rfl

/-! ### Properties -/

/-- What holds inside the element of a triple. -/
def propertyScope (b : Iri.Base) (predicate : String) (lang : Option String) : Scope :=
  ⟨b, lang, ("prop".toList, predicate.toList) :: (documentScope b).spaces⟩

theorem knowsRdf_propertyScope (b : Iri.Base) (predicate : String) (lang : Option String) :
    (propertyScope b predicate lang).KnowsRdf :=
  rfl

/-- The language that a value has. -/
def langOf : Value → Option String
  | .tagged _ lang => some lang
  | _ => none

def datatypeOf : Value → Option String
  | .typed _ datatype => some datatype
  | _ => none

def marksOf : Value → Marks
  | .node (.named iri) => { Marks.empty with resource := some iri }
  | .node (.blank label) => { Marks.empty with nodeId := some label }
  | .plain _ | .tagged _ _ => Marks.empty
  | .typed _ datatype => { Marks.empty with datatype := some datatype }

theorem extend_property (predicate : String) {v : Value} (h : v.Portable b.resolve) :
    (spaceAttribute predicate :: valueAttributes v).foldlM Scope.extend (documentScope b) =
      some (propertyScope b predicate (langOf v)) := by
  match v, h with
  | .node (.named iri), _ | .node (.blank label), _ => rfl
  | .plain value, _ | .typed value datatype, _ => rfl
  | .tagged value lang, h =>
    have hlang := Scope.extend_lang (propertyScope b predicate none) h.2
    exact (bind_pure _).trans hlang

theorem ofAttributes_property (predicate : String) {v : Value} (h : v.Portable b.resolve) :
    Marks.ofAttributes (propertyScope b predicate (langOf v))
      (spaceAttribute predicate :: valueAttributes v) = some (marksOf v) := by
  have hknows := knowsRdf_propertyScope b predicate (langOf v)
  rw [Marks.ofAttributes_space]
  match v, h with
  | .node (.named iri), h =>
    have hadd := Marks.add_reference hknows .empty "resource".toList (fun _ => rfl) h
    exact (Marks.ofAttributes_singleton _ _).trans hadd
  | .node (.blank label), h =>
    have hadd := Marks.add_nodeId hknows .empty h
    exact (Marks.ofAttributes_singleton _ _).trans hadd
  | .plain value, _ | .tagged value lang, _ => rfl
  | .typed value datatype, h =>
    have hadd := Marks.add_reference hknows .empty "datatype".toList (fun _ => rfl) h.2
    exact (Marks.ofAttributes_singleton _ _).trans hadd

theorem elementName_property (b : Iri.Base) (predicate : String) (lang : Option String) :
    (propertyScope b predicate lang).elementName "prop:".toList = some predicate := by
  show some (String.ofList (predicate.toList ++ [])) = _
  rw [List.append_nil, String.ofList_toList]

/-- What the start tag of a property says of the value. -/
def contentOf : Value → Content
  | .node n => .node n.toTerm
  | _ => .empty

theorem mem_unnamable_of_reserved {predicate : String} (h : predicate ∈ reserved) :
    predicate ∈ unnamable :=
  List.mem_cons_of_mem _ (List.mem_cons_of_mem _ h)

theorem step_propertyTag {subject : Term} {predicate : String} (hnamable : predicate ∉ unnamable)
    {v : Value} (h : v.Portable b.resolve) :
    (inside b n found subject).step (propertyTag predicate (valueAttributes v)) =
      some ((inside b n found subject).push "prop:".toList
        (propertyScope b predicate (langOf v))
        (.property subject predicate (contentOf v) (datatypeOf v) none)) := by
  have hdescription : predicate ≠ Names.Rdf.description :=
    fun heq => hnamable (heq ▸ List.mem_cons_self)
  have hitem : predicate ≠ Names.Rdf.item :=
    fun heq => hnamable (heq ▸ List.mem_cons_of_mem _ List.mem_cons_self)
  have hreserved : predicate ∉ reserved := fun hmem => hnamable (mem_unnamable_of_reserved hmem)
  have hmarks : (marksOf v).id = none ∧ (marksOf v).about.isSome = false := by
    match v with
    | .node (.named iri) | .node (.blank label) => exact ⟨rfl, rfl⟩
    | .plain value | .tagged value lang | .typed value datatype => exact ⟨rfl, rfl⟩
  have hopen := openTag_property (inside b n found subject) "prop:".toList
    (extend_property predicate h) (ofAttributes_property predicate h) hmarks.1
    (elementName_property b predicate _) rfl hitem
  refine hopen.trans ?_
  rw [openProperty, if_neg (by simp [hreserved, hdescription, hmarks.2])]
  match v with
  | .node (.named iri) | .node (.blank label) => rfl
  | .plain value | .tagged value lang | .typed value datatype => rfl

theorem run_append (r : Reader) (ts us : List Token) :
    r.run (ts ++ us) = (r.run ts).bind fun r => r.run us := by
  induction ts generalizing r with
  | nil => rfl
  | cons t rest ih =>
    show (r.step t).bind _ = ((r.step t).bind _).bind _
    rw [Option.bind_assoc]
    exact congrArg _ (funext fun r => ih r)

theorem run_closeProperty (s : Scope) (subject : Term) (predicate : String) (content : Content)
    (datatype : Option String) :
    ((inside b n found subject).push "prop:".toList s
      (.property subject predicate content datatype none)).run [.close "prop:".toList] =
    some (inside b n (⟨subject, predicate, Reader.object s datatype content⟩ :: found) subject) :=
  rfl

theorem step_text (s : Scope) (subject : Term) (predicate : String) (datatype : Option String)
    (value : List Char) :
    ((inside b n found subject).push "prop:".toList s
      (.property subject predicate .empty datatype none)).step (.text value) =
    some ((inside b n found subject).push "prop:".toList s
      (.property subject predicate (.text value) datatype none)) :=
  rfl

/-- The text of a literal and the end tag of its property add a triple. -/
theorem run_text {subject : Term} {predicate : String} (s : Scope) (datatype : Option String)
    (value : String) :
    ((inside b n found subject).push "prop:".toList s
      (.property subject predicate .empty datatype none)).run
        (Xml.Lexer.valueTokens value.toList ++ [.close "prop:".toList]) =
      some (inside b n (⟨subject, predicate, literal value datatype s.lang⟩ :: found) subject) := by
  rw [Xml.Lexer.valueTokens]
  split_ifs with hempty
  · -- There is no text between the tags of an empty value.
    obtain rfl : value = "" := String.toList_inj.mp hempty
    rw [List.nil_append, run_closeProperty]
    rfl
  · rw [List.singleton_append, run, step_text, Option.bind_some, run_closeProperty, Reader.object,
      String.ofList_toList]

/-- The value of a property and its end tag add the triple. -/
theorem run_content (subject : Term) (predicate : String) (v : Value) :
    ((inside b n found subject).push "prop:".toList (propertyScope b predicate (langOf v))
      (.property subject predicate (contentOf v) (datatypeOf v) none)).run
        (contentTokens v ++ [.close "prop:".toList]) =
      some (inside b n (⟨subject, predicate, v.toTerm⟩ :: found) subject) := by
  cases v with
  | node node => rfl
  | plain value | tagged value lang | typed value datatype => exact run_text _ _ value

theorem run_propertyTokens {subject : Term} {p : String × Value} (hnamable : p.1 ∉ unnamable)
    (h : p.2.Portable b.resolve) :
    (inside b n found subject).run (propertyTokens p) =
      some (inside b n (⟨subject, p.1, p.2.toTerm⟩ :: found) subject) := by
  show ((inside b n found subject).step _).bind _ = _
  rw [step_propertyTag hnamable h]
  exact run_content subject p.1 p.2

/-! ### Documents -/

/-- The properties of a description add a triple each, the last one in front. -/
theorem run_properties {subject : Node} {ps : List (String × Value)}
    (h : ∀ p ∈ ps, Statement.Portable b.resolve ⟨subject, p.1, p.2⟩) :
    (inside b n found subject.toTerm).run (ps.flatMap propertyTokens) =
      some (inside b n (((Description.mk subject ps).statements.map Statement.toTriple).reverse ++
        found) subject.toTerm) := by
  induction ps generalizing found with
  | nil => rfl
  | cons p rest ih =>
    have hp := h p List.mem_cons_self
    have hrest := fun q hq => h q (List.mem_cons_of_mem p hq)
    rw [List.flatMap_cons, run_append, run_propertyTokens hp.predicate hp.object,
      Option.bind_some, ih hrest]
    simp [Description.statements, Statement.toTriple]

theorem run_description {d : Description} (h : d.Portable b.resolve) :
    (between b n found).run d.tokens =
      some (between b (n + 1) ((d.statements.map Statement.toTriple).reverse ++ found)) := by
  have hproperties : ∀ p ∈ d.properties, Statement.Portable b.resolve ⟨d.subject, p.1, p.2⟩ :=
    fun p hp => h.statements _ (List.mem_map_of_mem hp)
  show ((between b n found).step _).bind _ = _
  rw [step_descriptionTag h.subject, Option.bind_some, run_append, run_properties hproperties]
  exact step_closeDescription d.subject.toTerm

theorem run_descriptions {ds : List Description} (h : ∀ d ∈ ds, d.Portable b.resolve) :
    ∃ m, (between b n found).run (ds.flatMap Description.tokens) = some (between b m
      (((ds.flatMap Description.statements).map Statement.toTriple).reverse ++ found)) := by
  induction ds generalizing n found with
  | nil => exact ⟨n, rfl⟩
  | cons d rest ih =>
    rw [List.forall_mem_cons] at h
    obtain ⟨m, hm⟩ : ∃ m, (between b (n + 1) ((d.statements.map Statement.toTriple).reverse ++
        found)).run (rest.flatMap Description.tokens) = _ := ih h.2
    refine ⟨m, ?_⟩
    rw [List.flatMap_cons, run_append, run_description h.1, Option.bind_some, hm,
      List.flatMap_cons, List.map_append, List.reverse_append, List.append_assoc]

end Reader

theorem trimmed_of_portable {resolve : List Char → Option (List Char)} {v : Value}
    (h : v.Portable resolve) {value : String} (hvalue : v.text? = some value) :
    Xml.Trimmed value.toList := by
  cases v with
  | node n => cases hvalue
  | plain text =>
    cases hvalue
    exact h
  | tagged text lang | typed text datatype =>
    cases hvalue
    exact h.1

/-- A document is read as the statements in its descriptions, in their order. -/
theorem read_documentText {base : String} (hbase : Iri.Base.ofText base.toList = some b)
    {ds : List Description} (h : ∀ d ∈ ds, d.Portable b.resolve) :
    read base (documentText ds) =
      some ((ds.flatMap Description.statements).map Statement.toTriple) := by
  have htokens : Xml.tokens (documentText ds).toList = some (documentTokens ds) :=
    tokens_documentText fun d hd p hp value hvalue =>
      trimmed_of_portable ((h d hd).statements _ (List.mem_map_of_mem hp)).object hvalue
  let ts := (ds.flatMap Description.statements).map Statement.toTriple
  obtain ⟨m, hdescriptions⟩ : ∃ m, (Reader.between b 0 []).run (ds.flatMap Description.tokens) =
      some (Reader.between b m (ts.reverse ++ [])) :=
    Reader.run_descriptions h
  have hrun : (Reader.start b).run (documentTokens ds) =
      some ⟨b, m, ts.reverse ++ [], [], [], true⟩ := by
    show ((Reader.start b).step documentTag).bind _ = _
    rw [Reader.step_documentTag, Option.bind_some, Reader.run_append, hdescriptions]
    rfl
  rw [read, hbase]
  simp only [Option.bind_eq_bind, Option.bind_some, htokens, hrun]
  show some (ts.reverse ++ []).reverse = _
  rw [List.append_nil, List.reverse_reverse]

end RdfXml

end ContextPolicy
