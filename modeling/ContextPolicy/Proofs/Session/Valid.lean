import ContextPolicy.Proofs.Condition.Written
import ContextPolicy.Proofs.Session.Replacement
import ContextPolicy.Proofs.Settings.Accepted

/-! A session holds only triples that can be written.

A triple that is added was checked, and the triples of a text are what the reader owes. The
triples of a condition are not checked: apart from the root, which was checked with the
settings, they have IRIs from a fixed list and numbered labels (`Composed.valid`). The labels
that they get in a graph are numbered too (`valid_relabel`). So no edit brings anything into
the graph that cannot be written (`Graph.Valid.edit`), nor does a run of edits. -/
namespace ContextPolicy

/-! ### Labels -/

theorem Text.isNumeric_of_isDigit {c : Char} (h : c.isDigit) : Text.isNumeric c :=
  (Ranges.covers_iff _ c).mpr ⟨(0x30, 0x39), List.mem_cons_self, (Turtle.isDigit_iff c).mp h⟩

theorem writable_conditionLabel (n : Nat) : Label.writable (conditionLabel n) := by
  obtain ⟨ds, htext, hds⟩ := toList_conditionLabel n
  have hchars : ∀ c ∈ 'a' :: 'c' :: ds, nameChar c = true ∧ c ≠ '.' := by
    rw [List.forall_mem_cons, List.forall_mem_cons]
    refine ⟨by decide +kernel, by decide +kernel, fun c hc => ⟨?_, ?_⟩⟩
    · simp [nameChar, Text.isAlphanumeric, Text.isNumeric_of_isDigit (hds c hc)]
    · rintro rfl
      cases hds '.' hc
  have hfirst : Text.isAlphanumeric 'a' = true := by decide +kernel
  have hlast : ('a' :: 'c' :: ds).getLast? ≠ some '.' :=
    fun h => (hchars '.' (List.mem_of_getLast? h)).2 rfl
  have hall : ('a' :: 'c' :: ds).all nameChar = true :=
    List.all_eq_true.mpr fun c hc => (hchars c hc).1
  unfold Label.writable
  simp only [htext, hfirst, hall, bne_iff_ne.mpr hlast, Bool.true_or, Bool.and_true]

/-! ### Conditions -/

theorem writable_of_mem_conditionIris {iri : String} (h : iri ∈ conditionIris) :
    Iri.writable iri := by
  obtain ⟨hchars, hresolved⟩ := readable_of_mem_conditionIris h none
  refine Iri.writable_iff.mpr ⟨?_, hchars⟩
  rintro rfl
  cases hresolved

theorem Term.OfCondition.writable {x : Term} (h : x.OfCondition) : x.writable := by
  cases h with
  | node k => exact writable_conditionLabel k
  | named h => exact writable_of_mem_conditionIris h
  | plain value => rfl
  | typed value h => exact writable_of_mem_conditionIris h

theorem Composed.valid {iri : String} {t : Triple} (h : Composed (.named iri) t)
    (hroot : Iri.writable iri) : t.Valid := by
  refine ⟨?_, ?_, writable_of_mem_conditionIris h.predicate, h.object.writable⟩
  · obtain hsubject | ⟨k, hsubject⟩ := h.subject <;> rw [hsubject] <;> rfl
  · obtain hsubject | ⟨k, hsubject⟩ := h.subject <;> rw [hsubject]
    · exact hroot
    · exact writable_conditionLabel k

/-- New labels are as good as the old ones. -/
theorem valid_relabel {ts : List Triple} (h : ∀ t ∈ ts, t.Valid) (taken : List String) :
    ∀ t ∈ relabel taken ts, t.Valid := by
  have hterm : ∀ x : Term, x.writable → (∀ label, x = .blank label → label ∈ labelsOf ts) →
      (x.rename (relabelling taken ts)).writable := by
    intro x hx hlabel
    cases x with
    | named iri | literal value datatype lang => exact hx
    | blank label =>
      obtain ⟨k, hk⟩ : ∃ k, relabelling taken ts label = conditionLabel k :=
        relabelling_eq_conditionLabel (hlabel label rfl)
      rw [Term.rename, hk]
      exact writable_conditionLabel k
  intro u hu
  rw [relabel_eq] at hu
  obtain ⟨t, ht, rfl⟩ := List.mem_map.mp hu
  obtain ⟨hnode, hsubject, hpredicate, hobject⟩ := h t ht
  refine ⟨?_, ?_, hpredicate, ?_⟩
  · show (t.subject.rename _).isLiteral = false
    cases hx : t.subject <;> rw [hx] at hnode <;> first | rfl | exact hnode
  · exact hterm _ hsubject fun label hx => mem_labelsOf.mpr ⟨t, ht, .inl hx⟩
  · exact hterm _ hobject fun label hx => mem_labelsOf.mpr ⟨t, ht, .inr hx⟩

theorem Scheme.valid_compile {s : Scheme} {iri : String} (hroot : s.root = .named iri)
    (hiri : Iri.writable iri) {facts : Facts} {ts : List Triple} (h : s.compile facts = .ok ts) :
    ∀ t ∈ ts, t.Valid :=
  fun t ht => Composed.valid (hroot ▸ composed_compile h t ht) hiri

/-! ### Graphs -/

/-- A graph of triples that can be written. -/
def Graph.Valid (g : Graph) : Prop :=
  ∀ t ∈ g.triples, t.Valid

namespace Graph.Valid
variable {g : Graph}

theorem ofTriples {ts : List Triple} (h : ∀ t ∈ ts, t.Valid) : (Graph.ofTriples ts).Valid := by
  rw [Graph.Valid, triples_ofTriples]
  exact h

theorem add (h : g.Valid) {t : Triple} (ht : t.Valid) : (g.add t).Valid := by
  intro u hu
  rcases mem_triples_addAll (show u ∈ (g.addAll [t]).triples from hu) with hu | hu
  · exact h u hu
  · exact List.mem_singleton.mp hu ▸ ht

theorem erase (h : g.Valid) (i : Nat) : (g.erase i).Valid := by
  intro t ht
  obtain ⟨e, he, rfl⟩ := List.mem_map.mp ht
  have hentries : (g.erase i).log.entries = g.entries.filter (·.1 ≠ i) := entries_erase g i
  rw [hentries] at he
  exact h e.2 (List.mem_map_of_mem (List.mem_of_mem_filter he))

theorem install (h : g.Valid) {s : Scheme} {ts : List Triple} (hts : ∀ t ∈ ts, t.Valid) :
    (s.install g ts).Valid := by
  intro t ht
  rcases mem_triples_addAll ht with ht | ht
  · rw [Scheme.triples_clear] at ht
    exact h t (List.mem_of_mem_filter ht)
  · exact valid_relabel hts _ t ht

end Graph.Valid

/-! ### Edits -/

namespace Session

inductive Edit where
  | add (subject predicate object : Term)
  | remove (i : Nat)
  | apply (facts : Facts)
  | load (text : String)

/-- The session after an edit, carried out or refused. -/
def edit (s : Session) : Edit → Session
  | .add subject predicate object =>
    match Triple.ofTerms subject predicate object with
    | .ok t => (s.add t).2
    | .error _ => s
  | .remove i => (s.removeInPlace i).2
  | .apply facts => s.applied facts
  | .load text => (s.loadInPlace text).2

def run (s : Session) (edits : List Edit) : Session :=
  edits.foldl edit s

/-- Only the graph of a session changes. -/
theorem edit_eq (s : Session) (e : Edit) : ∃ graph, s.edit e = { s with graph } := by
  cases e with
  | add subject predicate object =>
    rw [edit]
    split <;> exact ⟨_, rfl⟩
  | remove i => exact ⟨_, rfl⟩
  | apply facts =>
    rw [edit]
    cases h : s.scheme.compile facts with
    | error fault => exact ⟨_, applied_of_invalid h⟩
    | ok ts => exact ⟨_, applied_of_compile h⟩
  | load text =>
    rw [edit, loadInPlace]
    cases s.reader text <;> exact ⟨_, rfl⟩

section
variable {s : Session} {iri : String}

/-- An edit keeps a graph valid, if what it loads is. -/
theorem valid_edit (h : s.graph.Valid) (hroot : s.scheme.root = .named iri)
    (hiri : Iri.writable iri) {e : Edit}
    (hload : ∀ text, e = .load text → ∀ ts, s.reader text = .ok ts → ∀ t ∈ ts, t.Valid) :
    (s.edit e).graph.Valid := by
  cases e with
  | add subject predicate object =>
    rw [edit]
    split
    · next t ht => exact h.add (Triple.valid_of_ofTerms ht)
    · exact h
  | remove i => exact h.erase i
  | apply facts =>
    rw [edit]
    cases hts : s.scheme.compile facts with
    | error fault =>
      rw [applied_of_invalid hts]
      exact h
    | ok ts =>
      rw [applied_of_compile hts]
      exact h.install (Scheme.valid_compile hroot hiri hts)
  | load text =>
    rw [edit, loadInPlace]
    cases hts : s.reader text with
    | error fault => exact h
    | ok ts => exact .ofTriples (hload text rfl ts hts)

theorem valid_run (h : s.graph.Valid) (hroot : s.scheme.root = .named iri)
    (hiri : Iri.writable iri) {edits : List Edit}
    (hload : ∀ text, .load text ∈ edits → ∀ ts, s.reader text = .ok ts → ∀ t ∈ ts, t.Valid) :
    (s.run edits).graph.Valid := by
  induction edits generalizing s with
  | nil => exact h
  | cons e rest ih =>
    have hvalid := valid_edit h hroot hiri fun text he =>
      hload text (he ▸ List.mem_cons_self)
    obtain ⟨graph, hedit⟩ := s.edit_eq e
    show (run (s.edit e) rest).graph.Valid
    rw [hedit] at hvalid ⊢
    exact ih hvalid hroot fun text hmem => hload text (List.mem_cons_of_mem e hmem)

end

/-- Whatever is done to a session of accepted settings, each of its triples passes the check
that triples are added with, if those of the loaded texts do. So do the triples of every
condition, though they are not checked, and those with new labels. -/
theorem run_holds_valid {text : String} {s : Settings} (hs : Settings.ofJson text = .ok s)
    (reader : String → Except SyntaxFault (List Triple)) (edits : List Edit)
    (hload : ∀ text, .load text ∈ edits → ∀ ts, reader text = .ok ts → ∀ t ∈ ts,
      Triple.ofTerms t.subject (.named t.predicate) t.object = .ok t) :
    (∀ t ∈ (((ofSettings s).withReader reader).run edits).graph.triples,
      Triple.ofTerms t.subject (.named t.predicate) t.object = .ok t) ∧
    (∀ facts ts, s.scheme.compile facts = .ok ts → ∀ t ∈ ts,
      Triple.ofTerms t.subject (.named t.predicate) t.object = .ok t) ∧
    ∀ taken ts, (∀ t ∈ ts, Triple.ofTerms t.subject (.named t.predicate) t.object = .ok t) →
      ∀ t ∈ relabel taken ts,
        Triple.ofTerms t.subject (.named t.predicate) t.object = .ok t := by
  simp only [Triple.ofTerms_valid_iff] at hload ⊢
  obtain ⟨iri, hroot, hiri⟩ := Settings.condition_of_ofJson hs
  refine ⟨?_, fun facts ts hts => Scheme.valid_compile hroot hiri hts,
    fun taken ts hts => valid_relabel hts taken⟩
  have hempty : (∅ : Graph).Valid := .ofTriples fun t ht => absurd ht List.not_mem_nil
  exact valid_run (s := (ofSettings s).withReader reader) hempty hroot hiri hload

/-- Triples of a text, one of the user, and a condition that is put in, refused and put in
again, with a triple taken out between. -/
theorem run_holds_valid_edited :
    let text := "\x7b\"condition\":\"o:main\",\"prefixes\":\x7b\"o\":\"urn:o#\"\x7d\x7d"
    let loaded := "_:ac0 <urn:o#about> \"a\\nb\"@en-GB ."
    let window (first last : String) : Facts :=
      (∅ : Facts).insert (.time ⟨some first, some last⟩)
    let edits : List Session.Edit :=
      [.load loaded, .add (.blank "x-1") (.named "urn:o#p") (.typed "1" "urn:o#t"),
        .apply (window "08:00" "18:00"), .remove 0, .apply (window "later" "18:00"),
        .apply (window "22:00" "06:00")]
    ∃ s, Settings.ofJson text = .ok s ∧
      ∀ t ∈ ((ofSettings s).run edits).graph.triples,
        Triple.ofTerms t.subject (.named t.predicate) t.object = .ok t := by
  intro text loaded window edits
  let prefixes : Prefixes := ⟨Prefixes.defaults.spaces.insert "o" "urn:o#"⟩
  let s : Settings := { Settings.default with condition := .named "urn:o#main", prefixes }
  let ts : List Triple := [⟨.blank "ac0", "urn:o#about", .tagged "a\nb" "en-GB"⟩]
  have hs : (Settings.ofJson text).toOption = some s := by decide +kernel
  have hts : ((ofSettings s).reader loaded).toOption = some ts := by decide +kernel
  refine ⟨s, ok_of_toOption hs,
    (run_holds_valid (ok_of_toOption hs) (ofSettings s).reader edits ?_).1⟩
  intro other hmem us hus
  have hother : other = loaded := by
    simpa [edits] using hmem
  rw [hother, ok_of_toOption hts] at hus
  cases hus
  decide +kernel

end Session

end ContextPolicy
