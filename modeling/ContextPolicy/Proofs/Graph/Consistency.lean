import ContextPolicy.Proofs.Graph.Lookup

/-! What the check of a graph's two views establishes.

The check takes the indices posted for subjects, compares them with those of the log, and
looks each stored triple up in all three positions: it passes if these are the same indices
and every triple is posted for its terms (`isConsistent_iff`). So it notices whatever is
missing from the index. What is in the index beyond that it does not look at: an index that
is posted for a second term, or for a predicate or an object and for no subject. An index
without such postings is `Aligned`, and that is all the check leaves open
(`isConsistent_decides`). -/
namespace ContextPolicy

/-- Every index is posted like a triple: for one term in a position at most, and for a subject
if for anything. -/
structure PatternIndex.Aligned (x : PatternIndex) : Prop where
  unique : ∀ pos a b i, i ∈ (x.postings pos).indices a → i ∈ (x.postings pos).indices b → a = b
  hasSubject : ∀ pos a i, i ∈ (x.postings pos).indices a → ∃ s, i ∈ x.subjects.indices s

namespace Graph
variable {g : Graph}

theorem ViewsAgree.aligned (h : g.ViewsAgree) : g.index.Aligned where
  unique pos a b i ha hb := by
    obtain ⟨t, ht, rfl⟩ := (h pos a i).mp ha
    obtain ⟨u, hu, rfl⟩ := (h pos b i).mp hb
    rw [Option.some.inj (ht.symm.trans hu)]
  hasSubject pos a i ha := by
    obtain ⟨t, ht, -⟩ := (h pos a i).mp ha
    exact ⟨t.subject, (h .subject t.subject i).mpr ⟨t, ht, rfl⟩⟩

theorem Covered.viewsAgree (h : g.Covered) (haligned : g.index.Aligned) : g.ViewsAgree := by
  intro pos x i
  constructor
  · intro hx
    obtain ⟨t, ht⟩ := (h.live i).mp (haligned.hasSubject pos x i hx)
    exact ⟨t, ht, haligned.unique pos _ _ i (h.posted i t ht pos) hx⟩
  · rintro ⟨t, ht, rfl⟩
    exact h.posted i t ht pos

/-- For any log and any index, the check finds out whether what is stored is covered by the
index, and the two views agree if it passes and the index is aligned, and only then. -/
theorem isConsistent_decides (g : Graph) :
    (g.isConsistent = true ↔ g.Covered) ∧
      (g.ViewsAgree ↔ g.isConsistent = true ∧ g.index.Aligned) := by
  refine ⟨isConsistent_iff, ?_⟩
  rw [isConsistent_iff]
  exact ⟨fun h => ⟨h.covered, h.aligned⟩, fun h => h.1.viewsAgree h.2⟩

/-- An index from which another triple was taken than was put into it still has a predicate and
an object. Beside an empty log it passes. -/
theorem isConsistent_leftover :
    let t : Triple := ⟨.named "urn:a", "urn:p", .named "urn:b"⟩
    let u : Triple := ⟨.named "urn:a", "urn:q", .named "urn:c"⟩
    let g : Graph := ⟨∅, ((∅ : PatternIndex).add t 0).erase u 0⟩
    g.isConsistent = true ∧ g.get? 0 = none ∧
      0 ∈ (g.index.postings .predicate).indices (.named "urn:p") ∧ ¬g.ViewsAgree := by
  intro t u g
  have hposted : 0 ∈ (g.index.postings .predicate).indices (.named "urn:p") := by
    decide +kernel
  refine ⟨by decide +kernel, rfl, hposted, fun hagree => ?_⟩
  obtain ⟨t, ht, -⟩ := (hagree .predicate _ 0).mp hposted
  cases ht

end Graph

end ContextPolicy
