import ContextPolicy.Proofs.Condition.Mirrored

/-! What a condition depends on.

A condition is read from its root, over triples from their subjects to their objects, be
these blank nodes or not. The triples about the nodes that are met on the way, `related`,
are a graph of their own: the same nodes are met in it (`inReach_related_iff`), and a lookup
of one of them goes the same way (`earliest_related`). So a condition depends on no other
triple, and on nothing about these but their order (`Scheme.extract_of_related`).

The nodes can be computed (`mem_reached_iff`): one by one, until every triple about a node
that was found leads to another one. -/
namespace ContextPolicy

/-- A node itself, and the object of every triple whose subject is in its reach. -/
inductive InReach (ts : List Triple) (root : Term) : Term → Prop
  | root : InReach ts root root
  | object {t : Triple} (ht : t ∈ ts) (hsubject : InReach ts root t.subject) :
      InReach ts root t.object

/-! ### By search -/

/-- What is found in so many steps, each over a triple that was not used before. -/
def reachedFrom : Nat → List Triple → List Term → List Term
  | 0, _, found => found
  | n + 1, unused, found =>
    match unused.find? (·.subject ∈ found) with
    | none => found
    | some t => reachedFrom n (unused.erase t) (t.object :: found)

/-- The nodes in the reach of one. -/
def reached (ts : List Triple) (root : Term) : List Term :=
  reachedFrom ts.length ts [root]

section Search
variable {ts unused : List Triple} {root x : Term} {n : Nat} {found : List Term}

theorem reachedFrom_sound (hunused : unused ⊆ ts) (hfound : ∀ y ∈ found, InReach ts root y) :
    ∀ y ∈ reachedFrom n unused found, InReach ts root y := by
  induction n generalizing unused found with
  | zero => exact hfound
  | succ n ih =>
    rw [reachedFrom]
    split
    · exact hfound
    · next t ht =>
      have hmem := hunused (List.mem_of_find?_eq_some ht)
      have hsubject := hfound _ (by simpa using List.find?_some ht)
      refine ih (fun u hu => hunused (List.mem_of_mem_erase hu)) fun y hy => ?_
      rcases List.mem_cons.mp hy with rfl | hy
      · exact .object hmem hsubject
      · exact hfound y hy

theorem subset_reachedFrom : found ⊆ reachedFrom n unused found := by
  induction n generalizing unused found with
  | zero => exact List.Subset.refl found
  | succ n ih =>
    rw [reachedFrom]
    split
    · exact List.Subset.refl found
    · exact fun y hy => ih (List.mem_cons_of_mem _ hy)

/-- With a step for every triple, none that could be used is left over. -/
theorem reachedFrom_closed (hn : unused.length ≤ n)
    (hused : ∀ t ∈ ts, t ∈ unused ∨ t.object ∈ found) :
    ∀ t ∈ ts, t.subject ∈ reachedFrom n unused found → t.object ∈ reachedFrom n unused found := by
  induction n generalizing unused found with
  | zero =>
    intro t ht _
    rw [List.eq_nil_of_length_eq_zero (Nat.le_zero.mp hn)] at hused
    exact (hused t ht).resolve_left List.not_mem_nil
  | succ n ih =>
    rw [reachedFrom]
    split
    · next hnone =>
      intro t ht hsubject
      refine (hused t ht).resolve_left fun hmem => ?_
      have hstuck := List.find?_eq_none.mp hnone t hmem
      exact hstuck (decide_eq_true hsubject)
    · next t ht =>
      have hmem := List.mem_of_find?_eq_some ht
      refine ih ?_ fun u hu => ?_
      · rw [List.length_erase_of_mem hmem]
        omega
      · rcases hused u hu with hu | hu
        · by_cases heq : u = t
          · exact .inr (heq ▸ List.mem_cons_self)
          · exact .inl ((List.mem_erase_of_ne heq).mpr hu)
        · exact .inr (List.mem_cons_of_mem _ hu)

theorem mem_reached_iff : x ∈ reached ts root ↔ InReach ts root x := by
  constructor
  · refine fun hx => reachedFrom_sound (List.Subset.refl ts) (fun y hy => ?_) x hx
    rw [List.mem_singleton.mp hy]
    exact .root
  · intro h
    induction h with
    | root => exact subset_reachedFrom List.mem_cons_self
    | object ht _ ih => exact reachedFrom_closed (Nat.le_refl _) (fun _ hu => .inl hu) _ ht ih

instance : Decidable (InReach ts root x) :=
  decidable_of_iff _ mem_reached_iff

end Search

/-! ### Related triples -/

/-- The triples about nodes in the reach of one. -/
def related (ts : List Triple) (root : Term) : List Triple :=
  ts.filter fun t => InReach ts root t.subject

section Related
variable {ts us : List Triple} {root x : Term}

theorem InReach.mono (h : InReach ts root x) (hsub : ts ⊆ us) : InReach us root x := by
  induction h with
  | root => exact .root
  | object ht _ ih => exact .object (hsub ht) ih

/-- A part of triples that has all those about nodes in its own reach has no smaller reach. -/
theorem InReach.of_filter (h : InReach ts root x) {p : Triple → Bool}
    (hp : ∀ t ∈ ts, InReach (ts.filter p) root t.subject → p t = true) :
    InReach (ts.filter p) root x := by
  induction h with
  | root => exact .root
  | object ht _ ih => exact .object (List.mem_filter.mpr ⟨ht, hp _ ht ih⟩) ih

theorem inReach_related_iff : InReach (related ts root) root x ↔ InReach ts root x := by
  constructor
  · exact fun h => h.mono (List.filter_subset_self ts)
  · exact fun h => h.of_filter fun t _ ht =>
      decide_eq_true (ht.mono (List.filter_subset_self ts))

theorem mem_related_iff {t : Triple} :
    t ∈ related ts root ↔ t ∈ ts ∧ InReach ts root t.subject := by
  rw [related, List.mem_filter, decide_eq_true_iff]

/-- A lookup of a node in the reach finds a related triple. -/
theorem earliest_related (hx : InReach ts root x) (q : String) :
    earliest (related ts root) x q = earliest ts x q := by
  rw [earliest, earliest, related, List.find?_filter]
  congr 2
  funext t
  rw [Bool.eq_iff_iff]
  simp only [Bool.and_eq_true, beq_iff_eq, decide_eq_true_iff]
  constructor
  · exact fun h => h.2
  · rintro ⟨rfl, hq⟩
    exact ⟨hx, rfl, hq⟩

/-- Triples that are the same about the reach of a node in one of the graphs are the same about
its reach in the other one. -/
theorem related_eq_of_filter_eq
    (h : ts.filter (fun t => InReach ts root t.subject) =
      us.filter (fun t => InReach ts root t.subject)) : related ts root = related us root := by
  have hreach : ∀ x, InReach us root x ↔ InReach ts root x := by
    intro x
    constructor
    · intro hx
      refine (hx.of_filter (p := fun t => InReach ts root t.subject) fun t _ ht => ?_).mono ?_
      · rw [← h] at ht
        exact decide_eq_true (ht.mono (List.filter_subset_self ts))
      · rw [← h]
        exact List.filter_subset_self ts
    · intro hx
      rw [← inReach_related_iff, related, h] at hx
      exact hx.mono (List.filter_subset_self us)
  simp only [related, hreach]
  exact h

end Related

/-! ### Reading -/

section Extract
variable {g h : Graph} {root : Term} {s : Scheme}

theorem Graph.Indexed.mem_of_firstObject (hg : g.Indexed) {x y : Term} {q : String}
    (hy : g.firstObject x q = some y) : ⟨x, q, y⟩ ∈ g.triples := by
  rw [hg.firstObject_eq_earliest] at hy
  obtain ⟨t, ht, rfl⟩ := Option.map_eq_some_iff.mp hy
  have hterms : t.subject = x ∧ t.predicate = q := by simpa using List.find?_some ht
  obtain ⟨rfl, rfl⟩ := hterms
  exact List.mem_of_find?_eq_some ht

/-- Graphs with the same related triples look the same in the reach of the node. -/
theorem Graph.Indexed.mirrors_of_related (hg : g.Indexed) (hh : h.Indexed)
    (hrel : related g.triples root = related h.triples root) :
    g.Mirrors h id (InReach g.triples root) where
  lookup x q hx := by
    have hx' : InReach h.triples root x := by
      rw [← inReach_related_iff, ← hrel]
      exact inReach_related_iff.mpr hx
    have hid : Term.rename id = id := funext Term.rename_id
    rw [hid, Option.map_id, id, id, hg.firstObject_eq_earliest, hh.firstObject_eq_earliest,
      ← earliest_related hx, ← earliest_related hx', hrel]
  closed x q y hx hy := .object (hg.mem_of_firstObject hy) hx
  injective x y _ _ heq := by rwa [x.rename_id, y.rename_id] at heq

theorem Scheme.extract_of_related (hg : g.Indexed) (hh : h.Indexed)
    (hrel : related g.triples s.root = related h.triples s.root) : s.extract g = s.extract h := by
  have htyping : ∀ ts, s.typing ∈ ts ↔ s.typing ∈ related ts s.root := by
    intro ts
    rw [mem_related_iff]
    exact ⟨fun ht => ⟨ht, .root⟩, fun ht => ht.1⟩
  have hmirror := (hg.mirrors_of_related hh hrel).extract .root s.root.rename_id hg hh (by
    rw [htyping, ← hrel, ← htyping])
  have hid : ListFault.rename id = id := funext ListFault.rename_id
  rw [hmirror, hid, mapError_id]

/-- The facts of a condition, or the fault in it, depend on the triples about the reach of the
root alone, and on their order: not on triples that stand anywhere among these, about other
nodes, and not on indices. -/
theorem Scheme.extract_depends_on_related (s : Scheme) (ops others : List Graph.Operation) :
    let g := Graph.run ∅ ops
    let h := Graph.run ∅ others
    (related g.triples s.root = related h.triples s.root → s.extract g = s.extract h) ∧
    (g.triples.filter (fun t => InReach g.triples s.root t.subject) =
        h.triples.filter (fun t => InReach g.triples s.root t.subject) →
      s.extract h = s.extract g) ∧
    s.extract (.ofTriples g.triples) = s.extract g := by
  intro g h
  have hg : g.Indexed := Graph.indexed_run ops
  have hh : h.Indexed := Graph.indexed_run others
  refine ⟨extract_of_related hg hh, fun hsame => ?_, ?_⟩
  · exact (extract_of_related hg hh (related_eq_of_filter_eq hsame)).symm
  · refine extract_of_related (Graph.indexed_ofTriples _) hg ?_
    rw [Graph.triples_ofTriples]

/-- A negation of itself, alone and among triples about a node that leads to it. -/
theorem Scheme.extract_depends_on_related_cycle :
    let s : Scheme := ⟨.named "urn:org#policy", ∅, .dayMonthYear⟩
    let link : Triple := ⟨s.root, Dimension.user.link, conditionNode 0⟩
    let holds : Triple := ⟨conditionNode 0, Names.Context.expression, conditionNode 1⟩
    let cycle : Triple := ⟨conditionNode 1, Names.Context.not, conditionNode 1⟩
    let stray : Triple := ⟨conditionNode 2, Names.Context.allOf, conditionNode 1⟩
    let ops : List Graph.Operation := [.ofTriples [s.typing, link, holds, cycle]]
    let others : List Graph.Operation :=
      [.ofTriples [stray, s.typing, link, holds, stray, cycle, stray], .remove 0]
    let ts := (Graph.run ∅ ops).triples
    let us := (Graph.run ∅ others).triples
    (related ts s.root = related us s.root ∧ s.extract (.run ∅ ops) = s.extract (.run ∅ others)) ∧
    us.filter (fun t => InReach us s.root t.subject) =
        ts.filter (fun t => InReach us s.root t.subject) ∧
      s.extract (.run ∅ ops) = s.extract (.run ∅ others) := by
  intro s link holds cycle stray ops others ts us
  have hrelated : related ts s.root = related us s.root := by decide +kernel
  have hsame : us.filter (fun t => InReach us s.root t.subject) =
      ts.filter (fun t => InReach us s.root t.subject) := by decide +kernel
  exact ⟨⟨hrelated, (extract_depends_on_related s ops others).1 hrelated⟩,
    hsame, (extract_depends_on_related s others ops).2.1 hsame⟩

end Extract

end ContextPolicy
