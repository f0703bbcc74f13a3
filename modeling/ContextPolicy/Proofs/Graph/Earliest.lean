import ContextPolicy.Proofs.Graph.Lookup

/-! The earliest triple of a list with a subject and a predicate.

Where a node has several values of a property, lookups give the earliest one. In a graph
that is the earliest of its triples (`Graph.Indexed.firstObject_eq_earliest`), the one with
the lowest index (`Graph.Indexed.firstObject_eq_some_iff`). So a value that is found once is
found again, whatever triples come behind it (`Graph.Indexed.firstObject_addAll`), and a value
that no triple contradicts is found in whatever order the triples came
(`Graph.Indexed.firstObject_eq_some`). -/
namespace ContextPolicy

/-- The object of the earliest triple of a list with a subject and a predicate. -/
def earliest (ts : List Triple) (x : Term) (q : String) : Option Term :=
  (ts.find? fun t => t.subject == x && t.predicate == q).map (·.object)

variable {ts us : List Triple} {t : Triple} {x : Term} {q : String}

theorem earliest_cons_of_eq (hx : t.subject = x) (hq : t.predicate = q) :
    earliest (t :: ts) x q = some t.object := by
  simp [earliest, hx, hq]

theorem earliest_cons_of_ne (h : t.subject = x → t.predicate ≠ q) :
    earliest (t :: ts) x q = earliest ts x q := by
  have hfalse : (t.subject == x && t.predicate == q) = false := by simpa using h
  rw [earliest, List.find?_cons, hfalse]
  rfl

theorem earliest_append : earliest (ts ++ us) x q = (earliest ts x q).or (earliest us x q) := by
  rw [earliest, List.find?_append, Option.map_or]
  rfl

theorem earliest_eq_none (h : ∀ t ∈ ts, t.subject = x → t.predicate ≠ q) :
    earliest ts x q = none := by
  rw [earliest, Option.map_eq_none_iff, List.find?_eq_none]
  intro t ht
  simpa using h t ht

/-- All triples with the subject and the predicate of one have its object. -/
theorem earliest_eq_some (ht : t ∈ ts)
    (hobject : ∀ u ∈ ts, u.subject = t.subject → u.predicate = t.predicate →
      u.object = t.object) :
    earliest ts t.subject t.predicate = some t.object := by
  cases hfind : ts.find? fun u => u.subject == t.subject && u.predicate == t.predicate with
  | none =>
    have hself := List.find?_eq_none.mp hfind t ht
    simp at hself
  | some u =>
    have hu : u.subject = t.subject ∧ u.predicate = t.predicate := by
      simpa using List.find?_some hfind
    rw [earliest, hfind, Option.map_some, hobject u (List.mem_of_find?_eq_some hfind) hu.1 hu.2]

namespace Graph
variable {g : Graph}

theorem Indexed.firstObject_eq_earliest (h : g.Indexed) (x : Term) (q : String) :
    g.firstObject x q = earliest g.triples x q := by
  rw [h.firstObject_eq, earliest, Graph.triples, Log.triples, List.find?_map, Option.map_map]
  rfl

/-- New triples count only where nothing was found before. -/
theorem Indexed.firstObject_addAll (h : g.Indexed) (us : List Triple) (x : Term) (q : String) :
    (g.addAll us).firstObject x q = (g.firstObject x q).or (earliest us x q) := by
  rw [(h.addAll us).firstObject_eq_earliest, triples_addAll h.bounded, earliest_append,
    h.firstObject_eq_earliest]

theorem Indexed.firstObject_eq_none_iff (h : g.Indexed) {x : Term} {q : String} :
    g.firstObject x q = none ↔ ∀ t ∈ g.triples, t.subject = x → t.predicate ≠ q := by
  rw [h.firstObject_eq_earliest, earliest, Option.map_eq_none_iff, List.find?_eq_none]
  simp

theorem Indexed.firstObject_eq_some (h : g.Indexed) (ht : t ∈ g.triples)
    (hobject : ∀ u ∈ g.triples, u.subject = t.subject → u.predicate = t.predicate →
      u.object = t.object) : g.firstObject t.subject t.predicate = some t.object := by
  rw [h.firstObject_eq_earliest]
  exact earliest_eq_some ht hobject

/-! ### The lowest index -/

/-- Of the triples with a subject and a predicate, the one with the lowest index has this
object. -/
def IsFirst (g : Graph) (x : Term) (q : String) (y : Term) : Prop :=
  ∃ i, g.get? i = some ⟨x, q, y⟩ ∧
    ∀ j t, g.get? j = some t → t.subject = x → t.predicate = q → i ≤ j

theorem IsFirst.unique {y z : Term} (hy : g.IsFirst x q y) (hz : g.IsFirst x q z) : y = z := by
  obtain ⟨i, hi, hlow⟩ := hy
  obtain ⟨j, hj, hlow'⟩ := hz
  have hij : i = j := Nat.le_antisymm (hlow j _ hj rfl rfl) (hlow' i _ hi rfl rfl)
  subst hij
  exact (Triple.mk.inj (Option.some.inj (hi.symm.trans hj))).2.2

theorem Indexed.isFirst_of_firstObject (h : g.Indexed) {y : Term}
    (hy : g.firstObject x q = some y) : g.IsFirst x q y := by
  rw [h.firstObject_eq] at hy
  obtain ⟨⟨i, t⟩, hfind, rfl⟩ := Option.map_eq_some_iff.mp hy
  obtain ⟨hterms, before, behind, hentries, hbefore⟩ := List.find?_eq_some_iff_append.mp hfind
  have hterms : t.subject = x ∧ t.predicate = q := by simpa using hterms
  obtain ⟨rfl, rfl⟩ := hterms
  refine ⟨i, mem_entries_iff.mp (List.mem_of_find?_eq_some hfind), fun j u hu hx hq => ?_⟩
  have hmem : (j, u) ∈ g.entries := mem_entries_iff.mpr hu
  rw [hentries, List.mem_append, List.mem_cons] at hmem
  rcases hmem with hmem | heq | hmem
  · have hne := hbefore _ hmem
    simp [hx, hq] at hne
  · exact Nat.le_of_eq (Prod.mk.inj heq).1.symm
  · have hascending := g.log.entries_ascending
    rw [show g.log.entries = g.entries from rfl, hentries, List.pairwise_append,
      List.pairwise_cons] at hascending
    exact Nat.le_of_lt (hascending.2.1.1 _ hmem)

/-- A lookup takes the lowest index. -/
theorem Indexed.firstObject_eq_some_iff (h : g.Indexed) {y : Term} :
    g.firstObject x q = some y ↔ g.IsFirst x q y := by
  refine ⟨h.isFirst_of_firstObject, fun hy => ?_⟩
  cases hfound : g.firstObject x q with
  | none =>
    obtain ⟨i, hi, -⟩ := hy
    exact absurd rfl (h.firstObject_eq_none_iff.mp hfound _ (Log.mem_triples_of_get? hi) rfl)
  | some z => rw [(h.isFirst_of_firstObject hfound).unique hy]

end Graph

end ContextPolicy
