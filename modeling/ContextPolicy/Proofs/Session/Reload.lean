import ContextPolicy.Proofs.Condition.Relabelled
import ContextPolicy.Proofs.Condition.Written
import ContextPolicy.Proofs.Session.Apply
import ContextPolicy.Proofs.Settings.Accepted

/-! Facts that are saved and loaded again.

A new session that facts are put into holds the relabelled condition and nothing else. Its
text is read as these triples under labels of the reader's choice, and with the IRI that the
root resolves to (`read_text`). Other labels do not matter (`extract_rename`). Another root
does: nothing is said of the old one then, and the facts are gone (`extract_of_subjects`).
So facts survive where the root is an IRI that resolves to itself. Settings may give any
other reference for it, for they are accepted by their characters alone. -/
namespace ContextPolicy

open Turtle

/-! ### Facts behind other labels and other roots -/

namespace Scheme
variable {s : Scheme} {ts : List Triple} {facts : Facts} {iri : String} {ρ : String → String}

/-- A compiled condition gives its facts back, relabelled twice. -/
theorem extract_rename (hroot : s.root = .named iri) (hbuilt : facts.Built)
    (hnum : ∀ x ∈ facts.numbers, x.isFinite → ReadsBack x) (h : s.compile facts = .ok ts)
    (taken : List String) (hρ : Function.Injective ρ) :
    s.extract (.ofTriples ((relabel taken ts).map (Triple.mapNodes (Term.rename ρ)))) =
      .ok facts := by
  let labels : Set String := {label | label ∈ labelsOf ts}
  let σ := ρ ∘ relabelling taken ts
  have hσ : Set.InjOn σ labels := fun _ hlabel _ hother heq =>
    relabelling_inj hlabel hother (hρ heq)
  have hts : LabelledIn labels (Graph.ofTriples ts).triples := by
    rw [Graph.triples_ofTriples]
    exact fun t ht => ⟨fun label hx => mem_labelsOf.mpr ⟨t, ht, .inl hx⟩,
      fun label hx => mem_labelsOf.mpr ⟨t, ht, .inr hx⟩⟩
  have htwice : Triple.mapNodes (Term.rename ρ) ∘
      Triple.mapNodes (Term.rename (relabelling taken ts)) = Triple.mapNodes (Term.rename σ) := by
    funext t
    simp only [Function.comp_apply, Triple.mapNodes, Term.rename_rename, σ]
  rw [Graph.extract_of_rename hroot (Graph.indexed_ofTriples ts) (Graph.indexed_ofTriples _) hσ hts,
    extract_ofTriples_compile hbuilt hnum h]
  · rfl
  · rw [Graph.triples_ofTriples, Graph.triples_ofTriples, relabel_eq, List.map_map, htwice]

/-- There are no facts where nothing is said of the root. -/
theorem extract_of_subjects (h : ∀ t ∈ ts, t.subject ≠ s.root) :
    s.extract (.ofTriples ts) = .ok ∅ := by
  have htyping : s.typing ∉ (Graph.ofTriples ts).triples := by
    rw [Graph.triples_ofTriples]
    exact fun ht => h s.typing ht rfl
  rw [extract_eq (Graph.indexed_ofTriples ts), if_neg htyping]

/-- Facts survive a change of labels, but not a change of the root. -/
theorem extract_reroot (hroot : s.root = .named iri) (hbuilt : facts.Built)
    (hnum : ∀ x ∈ facts.numbers, x.isFinite → ReadsBack x) (h : s.compile facts = .ok ts)
    (taken : List String) (resolved : List Char) (hρ : Function.Injective ρ) :
    s.extract (.ofTriples (((relabel taken ts).map (Triple.reroot (.named iri) resolved)).map
      (Triple.mapNodes (Term.rename ρ)))) =
        .ok (if resolved = iri.toList then facts else ∅) := by
  split_ifs with hsame
  · have hself : (relabel taken ts).map (Triple.reroot (.named iri) resolved) =
        relabel taken ts := by
      rw [hsame, List.map_congr_left fun t _ => Triple.reroot_self, List.map_id']
    rw [hself]
    exact extract_rename hroot hbuilt hnum h taken hρ
  · refine extract_of_subjects fun u hu hsubject => ?_
    obtain ⟨v, hv, rfl⟩ := List.mem_map.mp hu
    obtain ⟨t, -, rfl⟩ := List.mem_map.mp hv
    rw [hroot] at hsubject
    exact Triple.reroot_subject_ne hsame (Term.rename_injective hρ hsubject)

end Scheme

/-! ### Saving and loading -/

namespace Session
variable {s : Settings} {facts : Facts} {n : Nat} {t : Session} {iri : String}

/-- What facts leave in a new session. -/
theorem apply_ofSettings (h : (ofSettings s).apply facts = .ok (n, t)) :
    ∃ ts taken, s.scheme.compile facts = .ok ts ∧ n = ts.length ∧
      t.graph.triples = relabel taken ts ∧
      t.text = Document.toText s.prefixes (relabel taken ts) := by
  obtain ⟨ts, hts, rfl, rfl⟩ := apply_ok h
  have htriples := s.scheme.triples_install Graph.bounded_empty ts
  refine ⟨ts, (s.scheme.clear ∅).blankLabels, hts, rfl, htriples, ?_⟩
  exact congrArg (Document.toText s.prefixes) htriples

/-- The text of a saved condition is read with the IRI that its root resolves to. -/
theorem read_text {b : Iri.Base} {resolved : List Char} (hroot : s.condition = .named iri)
    (href : IsReference iri.toList) (hresolved : b.resolve iri.toList = some resolved)
    (hdeclared : ∀ e ∈ s.prefixes.declarations, Prefixes.Declarable b.resolve e.1 e.2)
    {ts : List Triple} (h : s.scheme.compile facts = .ok ts) (taken : List String)
    {read : String → Except SyntaxFault (List Triple)} (hread : Accepts b.resolve read) :
    ∃ ρ : String → String, Function.Injective ρ ∧
      read (Document.toText s.prefixes (relabel taken ts)) =
        .ok (((relabel taken ts).map (Triple.reroot (.named iri) resolved)).map
          (Triple.mapNodes (Term.rename ρ))) := by
  have hcomposed : ∀ r ∈ relabel taken ts, Composed (.named iri) r :=
    Composed.relabel (hroot ▸ Scheme.composed_compile h) taken
  have hlines : List.Forall₂ (fun r u => Statement b.resolve r.written [u]) (relabel taken ts)
      ((relabel taken ts).map (Triple.reroot (.named iri) resolved)) :=
    List.forall₂_map_right_iff.mpr
      (List.forall₂_same.mpr fun r hr => (hcomposed r hr).statement href hresolved)
  exact hread _ _ (Document.written_derives_each hlines hdeclared)

theorem loadInPlace_of_read {text : String} {ts : List Triple} (h : t.reader text = .ok ts) :
    t.loadInPlace text = (.ok ts.length, { t with graph := .ofTriples ts }) := by
  simp only [loadInPlace, h, Graph.size_eq, Graph.triples_ofTriples]

theorem load_of_read {text : String} {ts : List Triple} (h : t.reader text = .ok ts) :
    t.load text = .ok { t with graph := .ofTriples ts } := by
  rw [load, loadInPlace_of_read h]
  rfl

theorem load_saved {b : Iri.Base} {resolved : List Char} (hroot : s.condition = .named iri)
    (href : IsReference iri.toList) (hresolved : b.resolve iri.toList = some resolved)
    (hdeclared : ∀ e ∈ s.prefixes.declarations, Prefixes.Declarable b.resolve e.1 e.2)
    (hbuilt : facts.Built) (hnum : ∀ x ∈ facts.numbers, x.isFinite → ReadsBack x)
    (h : (ofSettings s).apply facts = .ok (n, t)) {second : Session}
    (hscheme : second.scheme = s.scheme) (hread : Accepts b.resolve second.reader) :
    ∃ u, second.load t.text = .ok u ∧ u.graph.size = n ∧
      u.facts = .ok (if resolved = iri.toList then facts else ∅) := by
  obtain ⟨ts, taken, hts, rfl, -, htext⟩ := apply_ofSettings h
  obtain ⟨ρ, hρ, hus⟩ := read_text hroot href hresolved hdeclared hts taken hread
  rw [← htext] at hus
  refine ⟨_, load_of_read hus, ?_, ?_⟩
  · simp [Graph.size_eq, Graph.triples_ofTriples, relabel]
  · show second.scheme.extract _ = _
    rw [hscheme]
    exact Scheme.extract_reroot hroot hbuilt hnum hts taken resolved hρ

/-- Facts put into a session of accepted settings are saved to a text that any other session
of the settings loads, with the same number of triples, whatever reader of the grammar it
has; its own is one. The facts are there again if the root resolves to itself against the
base, and there are none otherwise. -/
theorem facts_reload {text : String} {s : Settings} (hs : Settings.ofJson text = .ok s)
    (hformat : s.format = .turtle) {b : Iri.Base} (hbase : Iri.Base.ofText s.base.toList = some b)
    (hdeclared : ∀ e ∈ s.prefixes.declarations,
      (e.1 = "" ∨ IsPrefixName e.1.toList) ∧ (b.resolve e.2.toList).isSome)
    {iri : String} (hroot : s.condition = .named iri) {resolved : List Char}
    (hresolved : b.resolve iri.toList = some resolved) {facts : Facts} (hbuilt : facts.Built)
    (hnum : ∀ x ∈ facts.numbers, x.isFinite → ReadsBack x) {n : Nat} {t : Session}
    (h : (ofSettings s).apply facts = .ok (n, t)) :
    t.graph.size = n ∧ Accepts b.resolve (ofSettings s).reader ∧
      ∀ second : Session, second.scheme = s.scheme → Accepts b.resolve second.reader →
        ∃ u, second.load t.text = .ok u ∧ u.graph.size = n ∧
          u.facts = .ok (if resolved = iri.toList then facts else ∅) := by
  have haccepted := Settings.accepted_of_ofJson hs
  obtain ⟨root, hcondition, href⟩ := haccepted.root
  cases hroot.symm.trans hcondition
  have hdeclarable : ∀ e ∈ s.prefixes.declarations, Prefixes.Declarable b.resolve e.1 e.2 := by
    intro e he
    have hentry := Prefixes.mem_entries_iff.mp (List.mem_filter.mp he).1
    have hwritable := (Bool.and_eq_true_iff.mp (haccepted.prefixes _ _ hentry)).2
    exact ⟨(hdeclared e he).1, Iri.isReference_of_writable hwritable, (hdeclared e he).2⟩
  refine ⟨?_, ?_, fun second hscheme hread => ?_⟩
  · obtain ⟨ts, taken, -, rfl, htriples, -⟩ := apply_ofSettings h
    rw [Graph.size_eq, htriples, relabel, List.length_map]
  · show Accepts b.resolve (s.format.read s.base)
    rw [hformat]
    exact accepts_read hbase
  · exact load_saved hroot href hresolved hdeclarable hbuilt hnum h hscheme hread

/-- A root in short form, with a namespace of the settings. -/
theorem facts_reload_expanded :
    let text := "\x7b\"condition\":\"o:doors/../main\",\"prefixes\":\x7b\"o\":\"urn:o#\"\x7d," ++
      "\"vocabulary\":\x7b\"user\":" ++
      "\x7b\"k\":\x7b\"predicate\":\"o:p\",\"iri\":\"o:q\"\x7d\x7d\x7d\x7d"
    let facts : Facts :=
      ((∅ : Facts).insert (.user (some (.any [.not (.all [.keyword "K"]), .any []])))).insert
        (.outdoor ⟨some 51.5, some (-0.12), some 300, .kilometers⟩)
    ∃ (s : Settings) (n : Nat) (t u : Session), Settings.ofJson text = .ok s ∧
      (ofSettings s).apply facts = .ok (n, t) ∧ (ofSettings s).load t.text = .ok u ∧
      u.graph.size = n ∧ u.facts = .ok facts := by
  intro text facts
  let base := Iri.parts "http://localhost/".toList
  let resolve := Iri.Base.resolve (some base)
  let keywords : Keywords := (∅ : Keywords).insert "k" ⟨"urn:o#p", .named "urn:o#q"⟩
  let prefixes : Prefixes := ⟨Prefixes.defaults.spaces.insert "o" "urn:o#"⟩
  let iri := "urn:o#doors/../main"
  let s : Settings :=
    { Settings.default with
      condition := .named iri, prefixes, vocabulary := ⟨keywords, ∅, ∅⟩ }
  have hs : (Settings.ofJson text).toOption = some s := by decide +kernel
  have hbase : Iri.Base.ofText s.base.toList = some (some base) := by decide +kernel
  have hdeclared : ∀ e ∈ s.prefixes.declarations,
      (e.1 = "" ∨ IsPrefixName e.1.toList) ∧ (resolve e.2.toList).isSome := by
    decide +kernel
  have hresolved : resolve iri.toList = some iri.toList := by decide +kernel
  have hnum : ∀ x ∈ facts.numbers, x.isFinite → ReadsBack x := by decide +kernel
  have hok : (s.scheme.compile facts).toOption.isSome := by decide +kernel
  obtain ⟨ts, hts⟩ := Option.isSome_iff_exists.mp hok
  have happly := apply_of_compile (s := ofSettings s) (ok_of_toOption hts)
  obtain ⟨-, hread, hload⟩ := facts_reload (ok_of_toOption hs) rfl hbase hdeclared rfl hresolved
    ((Facts.Built.empty.insert _).insert _) hnum happly
  obtain ⟨u, hu, hsize, hfacts⟩ := hload (ofSettings s) rfl hread
  rw [if_pos rfl] at hfacts
  exact ⟨s, _, _, u, ok_of_toOption hs, happly, hu, hsize, hfacts⟩

/-- Settings may name the root by a reference without a scheme. The saved text is then about
the IRI that it resolves to, and the facts are not found under the reference. -/
theorem facts_reload_relative :
    let text := "\x7b\"condition\": \"policy\"\x7d"
    let facts : Facts := (∅ : Facts).insert (.time ⟨some "08:00", some "18:00"⟩)
    ∃ (s : Settings) (n : Nat) (t u : Session), Settings.ofJson text = .ok s ∧
      s.format = .turtle ∧ (ofSettings s).apply facts = .ok (n, t) ∧
      (ofSettings s).load t.text = .ok u ∧ u.facts = .ok ∅ ∧ facts ≠ ∅ := by
  intro text facts
  let base := Iri.parts "http://localhost/".toList
  let resolve := Iri.Base.resolve (some base)
  let s : Settings := { Settings.default with condition := .named "policy" }
  have hs : (Settings.ofJson text).toOption = some s := by decide +kernel
  have hbase : Iri.Base.ofText s.base.toList = some (some base) := by decide +kernel
  have hread : Accepts resolve (ofSettings s).reader := accepts_read hbase
  have hresolved : resolve "policy".toList = some "http://localhost/policy".toList := by
    decide +kernel
  have hdeclared : ∀ e ∈ s.prefixes.declarations, (e.1 = "" ∨ IsPrefixName e.1.toList) ∧
      IsReference e.2.toList ∧ (resolve e.2.toList).isSome := by
    decide +kernel
  have hok : (s.scheme.compile facts).toOption.isSome := by decide +kernel
  obtain ⟨ts, hts⟩ := Option.isSome_iff_exists.mp hok
  have happly := apply_of_compile (s := ofSettings s) (ok_of_toOption hts)
  obtain ⟨u, hu, -, hfacts⟩ := load_saved rfl (by decide) hresolved
    (fun e he => ⟨(hdeclared e he).1, (hdeclared e he).2.1, (hdeclared e he).2.2⟩)
    (Facts.Built.empty.insert _) (by decide +kernel) happly rfl hread
  rw [if_neg (by decide)] at hfacts
  exact ⟨s, _, _, u, ok_of_toOption hs, rfl, happly, hu, hfacts, by decide +kernel⟩

end Session

end ContextPolicy
