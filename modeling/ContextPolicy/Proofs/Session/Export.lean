import ContextPolicy.Proofs.Condition.Values
import ContextPolicy.Proofs.RdfXml.Describing
import ContextPolicy.Proofs.Session.Reload

/-! Facts that are exported and loaded again.

A condition consists of triples that a document keeps (`Composed.portable`), unless its root
is read as another IRI: its labels are names of XML too, and no literal loses white space. So
whatever formatter writes the document of a session with nothing but a condition, and whatever
parser reads it, what is read are the triples that the session holds, labels included, and the
session that loads them has the same graph. -/
namespace ContextPolicy

open Xml (Trimmed)

/-! ### Conditions in documents -/

theorem isUncolonedName_conditionLabel (n : Nat) :
    Text.isUncolonedName (conditionLabel n).toList = true := by
  obtain ⟨ds, htext, hds⟩ := toList_conditionLabel n
  have hstart : Text.isNameStart 'a' = true := by decide
  have hrest : ∀ c ∈ 'c' :: ds, (Text.isNameStart c || Text.isNameExtend c || c.isDigit ||
      c == '_' || c == '-' || c == '.') = true := by
    rw [List.forall_mem_cons]
    exact ⟨by decide, fun c hc => by simp [hds c hc]⟩
  rw [htext, Text.isUncolonedName, hstart, Bool.true_or, Bool.true_and]
  exact List.all_eq_true.mpr hrest

section
variable {b : Iri.Base}

theorem resolve_of_mem_conditionIris {iri : String} (h : iri ∈ conditionIris) (b : Iri.Base) :
    b.resolve iri.toList = some iri.toList :=
  (readable_of_mem_conditionIris h b).2

theorem Term.OfCondition.portable {x : Term} (h : x.OfCondition)
    (hvalue : x.ValueIs fun value => Trimmed value.toList) :
    ∃ v : RdfXml.Value, v.toTerm = x ∧ v.Portable b.resolve := by
  cases h with
  | node k => exact ⟨.node (.blank _), rfl, isUncolonedName_conditionLabel k⟩
  | named h => exact ⟨.node (.named _), rfl, resolve_of_mem_conditionIris h b⟩
  | plain value => exact ⟨.plain value, rfl, hvalue value rfl⟩
  | typed value h =>
    exact ⟨.typed value _, rfl, hvalue value rfl, resolve_of_mem_conditionIris h b⟩

theorem Composed.portable {iri : String} {t : Triple} (h : Composed (.named iri) t)
    (hroot : b.resolve iri.toList = some iri.toList)
    (hvalue : t.object.ValueIs fun value => Trimmed value.toList) : t.Portable b.resolve := by
  have hnamable : ∀ iri ∈ conditionIris, iri ∉ RdfXml.unnamable := by
    decide +kernel
  obtain ⟨n, hn, hsubject⟩ : ∃ n : RdfXml.Node, n.toTerm = t.subject ∧ n.Portable b.resolve := by
    obtain hsubject | ⟨k, hsubject⟩ := h.subject <;> rw [hsubject]
    · exact ⟨.named iri, rfl, hroot⟩
    · exact ⟨.blank _, rfl, isUncolonedName_conditionLabel k⟩
  obtain ⟨v, hv, hobject⟩ := h.object.portable (b := b) hvalue
  refine ⟨⟨n, t.predicate, v⟩, ?_, hsubject, hnamable _ h.predicate, hobject⟩
  rw [RdfXml.Statement.toTriple, hn, hv]

end

/-- Literals keep their values under new labels. -/
theorem valueIs_relabel {P : String → Prop} {ts : List Triple}
    (h : ∀ t ∈ ts, t.object.ValueIs P) (taken : List String) :
    ∀ t ∈ relabel taken ts, t.object.ValueIs P := by
  intro u hu
  rw [relabel_eq] at hu
  obtain ⟨t, ht, rfl⟩ := List.mem_map.mp hu
  exact (h t ht).rename _

/-! ### Sessions -/

namespace Scheme
variable {s : Scheme}

/-- Facts that are extracted stand behind their own dimensions. -/
theorem built_extract {g : Graph} {facts : Facts} (h : s.extract g = .ok facts) :
    facts.Built := by
  rw [extract] at h
  split_ifs at h
  · cases h
    exact .empty
  · refine foldlM_keeps (fun facts d facts' hfacts hstep => ?_) .empty h
    rw [extractDimension] at hstep
    split at hstep
    · cases hstep
      exact hfacts
    · obtain ⟨fact, -, rfl⟩ := map_eq_ok hstep
      exact hfacts.insert fact

/-- A compiled condition gives its facts back, relabelled. -/
theorem extract_relabel {iri : String} (hroot : s.root = .named iri) {facts : Facts}
    (hbuilt : facts.Built) (hnum : ∀ x ∈ facts.numbers, x.isFinite → ReadsBack x)
    {ts : List Triple} (h : s.compile facts = .ok ts) (taken : List String) :
    s.extract (.ofTriples (relabel taken ts)) = .ok facts := by
  have hid : Triple.mapNodes (Term.rename id) = id := by
    funext ⟨subject, predicate, object⟩
    cases subject <;> cases object <;> rfl
  have hsame := extract_rename hroot hbuilt hnum h taken Function.injective_id
  rwa [hid, List.map_id] at hsame

/-- Nothing but the condition is in a graph that was empty. -/
theorem triples_install_of_empty {g : Graph} (h : g.triples = []) (ts : List Triple) :
    (s.install g ts).triples = relabel (s.clear g).blankLabels ts := by
  have hbounded : g.Bounded := by
    intro i t ht
    have hmem : t ∈ g.triples := Log.mem_triples_of_get? ht
    rw [h] at hmem
    cases hmem
  rw [triples_install s hbounded, triples_clear, h]
  rfl

end Scheme

namespace Session

/-- The formatter of this library gives the document that a session is exported to. -/
theorem exportXml_plain (s : Session) : s.exportXml .plain = .ok s.rdfXml :=
  RdfXml.describes_plain.write s.graph.triples

/-- Facts put into an empty session are exported to a document that a session of the same
settings loads, if the root is an IRI that resolves to itself and the keywords are words of
texts. It has the same triples then, with all their labels, and the same facts, as long as
each stands behind its own dimension. That is so for every formatter that describes what it is
given, and every parser that reports it. -/
theorem rdfXml_reload {s : Settings} {iri : String} (hroot : s.condition = .named iri)
    {b : Iri.Base} (hself : b.resolve iri.toList = some iri.toList)
    {f : RdfXml.Formatter} {Holds : f.State → List RdfXml.Statement → Prop}
    (hformatter : f.Describes Holds)
    {p : RdfXml.Parser} (hparser : p.Reports b.resolve s.base) {first second : Session}
    (hfirst : first.scheme = s.scheme) (hempty : first.graph.triples = [])
    (hsecond : second.scheme = s.scheme) (hreader : second.reader = p.read s.base)
    {facts : Facts} (hread : ∀ fact ∈ facts.toList, fact.WasRead)
    (hnum : ∀ x ∈ facts.numbers, x.isFinite → ReadsBack x) {n : Nat} {t : Session}
    (h : first.apply facts = .ok (n, t)) :
    ∃ text u, t.exportXml f = .ok text ∧ second.loadInPlace text = (.ok n, u) ∧
      u.graph.triples = t.graph.triples ∧ u.graph.size = t.graph.size ∧
      (u.facts = .ok facts ↔ facts.Built) := by
  obtain ⟨ts, hts, rfl, ht⟩ := apply_ok h
  obtain ⟨taken, htriples⟩ : ∃ taken, t.graph.triples = relabel taken ts := by
    rw [ht]
    exact ⟨_, Scheme.triples_install_of_empty hempty ts⟩
  rw [hfirst] at hts
  have hcomposed : ∀ u ∈ relabel taken ts, Composed (.named iri) u :=
    Composed.relabel (hroot ▸ Scheme.composed_compile hts) taken
  have hvalues := valueIs_relabel (Scheme.trimmed_compile hts hread) taken
  have hportable : ∀ u ∈ relabel taken ts, u.Portable b.resolve :=
    fun u hu => (hcomposed u hu).portable hself (hvalues u hu)
  have hexport : t.exportXml f = .ok (RdfXml.document (relabel taken ts)) := by
    rw [exportXml, htriples]
    exact hformatter.write _
  have hload := loadInPlace_of_read (t := second)
    ((congrFun hreader _).trans (hparser.read hportable))
  have hlength : (relabel taken ts).length = ts.length := by rw [relabel, List.length_map]
  refine ⟨_, _, hexport, hlength ▸ hload, ?_, ?_, Scheme.built_extract, fun hbuilt => ?_⟩
  · rw [htriples, Graph.triples_ofTriples]
  · rw [Graph.size_eq, Graph.size_eq, htriples, Graph.triples_ofTriples]
  · show second.scheme.extract _ = _
    rw [hsecond]
    exact Scheme.extract_relabel hroot hbuilt hnum hts taken

/-- Keywords with markup in them, put where a triple was taken out, and a number. -/
theorem rdfXml_reload_markup :
    let keywords : Keywords :=
      ((∅ : Keywords).insert "a<b" ⟨"urn:o#p", .plain "<&>"⟩).insert "\"x\">'y';"
        ⟨"urn:o#p", .plain ""⟩
    let s : Settings := { Settings.default with vocabulary := ⟨keywords, ∅, ∅⟩ }
    let e : Expression :=
      .any [.keyword "a<b", .not (.all [.keyword "A<B", .keyword "\"x\">'y';"])]
    let facts : Facts :=
      (((∅ : Facts).insert (.user (some e))).insert
        (.time ⟨some "01/02/2024", some "29/02/2024"⟩)).insert
        (.outdoor ⟨some 51.5, some (-0.12), some 300, .meters⟩)
    let first : Session :=
      { ofSettings s with
        graph := .run ∅ [.add ⟨.blank "ac0", "urn:o#p", .plain " "⟩, .remove 0] }
    let second : Session := ofSettings { s with format := .rdfXml }
    ∃ n t text u, first.apply facts = .ok (n, t) ∧ t.exportXml .plain = .ok text ∧
      second.loadInPlace text = (.ok n, u) ∧ u.graph.triples = t.graph.triples ∧
      u.facts = .ok facts := by
  intro keywords s e facts first second
  let base := Iri.parts "http://localhost/".toList
  let iri := "http://localhost/condition"
  have hbase : Iri.Base.ofText s.base.toList = some (some base) := by decide +kernel
  have hself : Iri.Base.resolve (some base) iri.toList = some iri.toList := by decide +kernel
  have hempty : first.graph.triples = [] := by decide +kernel
  have he : (Expression.read "a<b or not (A<B and \"x\">'y';)").toOption = some e := by
    decide +kernel
  have hread : ∀ fact ∈ facts.toList, fact.WasRead := by
    show ∀ fact ∈ [Fact.user (some e), _, _], fact.WasRead
    simp only [List.forall_mem_cons]
    refine ⟨fun f hf => ?_, nofun, nofun, List.forall_mem_nil _⟩
    cases hf
    exact ⟨_, ok_of_toOption he⟩
  have hnum : ∀ x ∈ facts.numbers, x.isFinite → ReadsBack x := by decide +kernel
  have hok : (s.scheme.compile facts).toOption.isSome := by decide +kernel
  obtain ⟨ts, hts⟩ := Option.isSome_iff_exists.mp hok
  have happly := apply_of_compile (s := first) (ok_of_toOption hts)
  obtain ⟨text, u, hexport, hload, htriples, -, hfacts⟩ :=
    rdfXml_reload (s := s) rfl hself RdfXml.describes_plain (RdfXml.reports_plain hbase) rfl
      hempty (show second.scheme = s.scheme from rfl) rfl hread hnum happly
  have hbuilt : facts.Built := ((Facts.Built.empty.insert _).insert _).insert _
  exact ⟨_, _, text, u, happly, hexport, hload, htriples, hfacts.mpr hbuilt⟩

end Session

end ContextPolicy
