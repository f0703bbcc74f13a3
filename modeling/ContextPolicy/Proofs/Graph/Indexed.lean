import ContextPolicy.Proofs.Graph.Entries

/-! The index of a graph always describes its log.

`Indexed` is the agreement of the two: an index is posted for a term in a position exactly
when the triple stored under it has the term there, and no term is posted under no index at
all. The second half costs something when a triple goes, but it is what makes the index a
function of the log (`Indexed.index_eq`): without it, a term that was once stored would
leave a trace. A new triple is posted under an index of its own because the counter of the log is
ahead of all that are in use.

A graph is only ever made by a list of operations, `run`. Each of them answers and changes the
graph in place, carried out or refused (`act`), and keeps the agreement (`Indexed.perform`), so it
holds after every run (`indexed_run`). -/
namespace ContextPolicy

/-! ### Postings -/

namespace Postings

theorem getElem?_add (p : Postings) (x y : Term) (i : Nat) :
    (p.add x i)[y]? = if x = y then some ((p.indices x).insert i) else p[y]? := by
  rw [add, Std.ExtTreeMap.getElem?_alter]
  simp only [Std.compare_eq_iff_eq]
  rfl

theorem mem_indices_add {p : Postings} {x y : Term} {i j : Nat} :
    j ∈ (p.add x i).indices y ↔ (x = y ∧ i = j) ∨ j ∈ p.indices y := by
  by_cases h : x = y
  · subst h
    rw [indices, getElem?_add, if_pos rfl, Option.getD_some, Std.ExtTreeSet.mem_insert,
      Std.compare_eq_iff_eq]
    simp
  · rw [indices, getElem?_add, if_neg h]
    simp [indices, h]

theorem getElem?_erase (p : Postings) (x y : Term) (i : Nat) :
    (p.erase x i)[y]? =
      if x = y then p[x]?.bind fun s => if (s.erase i).isEmpty then none else some (s.erase i)
      else p[y]? := by
  rw [erase, Std.ExtTreeMap.getElem?_alter]
  simp only [Std.compare_eq_iff_eq]

theorem indices_erase_self (p : Postings) (x : Term) (i : Nat) :
    (p.erase x i).indices x = (p.indices x).erase i := by
  rw [indices, indices, getElem?_erase, if_pos rfl]
  cases hx : p[x]? with
  | none =>
    symm
    exact Std.ExtTreeSet.erase_eq_empty_iff.mpr (.inl rfl)
  | some s =>
    rw [Option.bind_some, Option.getD_some]
    split
    · next he => exact (Std.ExtTreeSet.isEmpty_iff.mp he).symm
    · rfl

theorem mem_indices_erase {p : Postings} {x y : Term} {i j : Nat} :
    j ∈ (p.erase x i).indices y ↔ j ∈ p.indices y ∧ ¬(x = y ∧ i = j) := by
  by_cases h : x = y
  · subst h
    rw [indices_erase_self, Std.ExtTreeSet.mem_erase, ne_eq, Std.compare_eq_iff_eq]
    simp [and_comm]
  · rw [indices, getElem?_erase, if_neg h]
    simp [indices, h]

/-- No term is posted under no index. -/
def Tight (p : Postings) : Prop :=
  ∀ (x : Term) (set : IndexSet), p[x]? = some set → set ≠ ∅

theorem tight_empty : Tight ∅ := by
  intro x set h
  simp at h

theorem Tight.add {p : Postings} (h : p.Tight) (x : Term) (i : Nat) : (p.add x i).Tight := by
  intro y set hset
  rw [getElem?_add] at hset
  split at hset
  · cases hset
    exact Std.ExtTreeSet.insert_ne_empty
  · exact h y set hset

theorem Tight.erase {p : Postings} (h : p.Tight) (x : Term) (i : Nat) : (p.erase x i).Tight := by
  intro y set hset
  rw [getElem?_erase] at hset
  split at hset
  · obtain ⟨s, -, hs⟩ := Option.bind_eq_some_iff.mp hset
    split at hs
    · cases hs
    · next hne =>
      cases hs
      exact fun he => hne (Std.ExtTreeSet.isEmpty_iff.mpr he)
  · exact h y set hset

/-- Tight postings are no more than the sets of indices. -/
theorem Tight.ext {p q : Postings} (hp : p.Tight) (hq : q.Tight)
    (h : ∀ x i, i ∈ p.indices x ↔ i ∈ q.indices x) : p = q := by
  refine Std.ExtTreeMap.ext_getElem? fun x => ?_
  have hx : p.indices x = q.indices x := Std.ExtTreeSet.ext_mem fun {i} => h x i
  rw [indices, indices] at hx
  cases hpx : p[x]? with
  | none =>
    cases hqx : q[x]? with
    | none => rfl
    | some s =>
      rw [hpx, hqx] at hx
      exact absurd hx.symm (hq x s hqx)
  | some s =>
    cases hqx : q[x]? with
    | none =>
      rw [hpx, hqx] at hx
      exact absurd hx (hp x s hpx)
    | some s' =>
      rw [hpx, hqx] at hx
      exact congrArg some hx

end Postings

namespace PatternIndex

theorem postings_add (x : PatternIndex) (t : Triple) (i : Nat) (pos : Position) :
    (x.add t i).postings pos = (x.postings pos).add (t.term pos) i := by
  cases pos <;> rfl

theorem postings_erase (x : PatternIndex) (t : Triple) (i : Nat) (pos : Position) :
    (x.erase t i).postings pos = (x.postings pos).erase (t.term pos) i := by
  cases pos <;> rfl

theorem ext_postings {x y : PatternIndex} (h : ∀ pos, x.postings pos = y.postings pos) :
    x = y := by
  cases x
  cases y
  exact congr (congr (congrArg mk (h .subject)) (h .predicate)) (h .object)

end PatternIndex

namespace Graph

/-- Index and log of a graph agree. -/
structure Indexed (g : Graph) : Prop where
  bounded : g.Bounded
  posted : ∀ pos x i,
    i ∈ (g.index.postings pos).indices x ↔ ∃ t, g.get? i = some t ∧ t.term pos = x
  tight : ∀ pos, (g.index.postings pos).Tight

/-- The index follows from the log. -/
theorem Indexed.index_eq {g h : Graph} (hg : g.Indexed) (hh : h.Indexed)
    (hget : ∀ i, g.get? i = h.get? i) : g.index = h.index := by
  refine PatternIndex.ext_postings fun pos => (hg.tight pos).ext (hh.tight pos) fun x i => ?_
  rw [hg.posted, hh.posted, hget]

/-- Graphs that are kept consistent are the same if they hold the same triples. -/
theorem Indexed.ext_get? {g h : Graph} (hg : g.Indexed) (hh : h.Indexed)
    (hnext : g.nextIndex = h.nextIndex) (hget : ∀ i, g.get? i = h.get? i) : g = h := by
  have hlog : g.log = h.log := Log.ext_get? hnext hget
  have hindex := hg.index_eq hh hget
  cases g
  cases h
  exact congr (congrArg Graph.mk hlog) hindex

theorem postings_empty (pos : Position) : (∅ : Graph).index.postings pos = ∅ := by
  cases pos <;> rfl

theorem indexed_empty : Indexed ∅ where
  bounded := bounded_empty
  posted pos x i := by
    rw [postings_empty]
    simp [Postings.indices]
  tight pos := by
    rw [postings_empty]
    exact Postings.tight_empty

theorem Indexed.add {g : Graph} (h : g.Indexed) (t : Triple) : (g.add t).Indexed where
  bounded := h.bounded.add t
  posted pos x i := by
    show i ∈ ((g.index.add t g.nextIndex).postings pos).indices x ↔ _
    rw [PatternIndex.postings_add, Postings.mem_indices_add, h.posted, get?_add]
    by_cases hi : i = g.nextIndex
    · subst hi
      have hnone : ∀ u, g.get? g.nextIndex ≠ some u :=
        fun u hu => Nat.lt_irrefl _ (h.bounded _ _ hu)
      simp [hnone]
    · simp [hi, Ne.symm hi]
  tight pos := by
    show ((g.index.add t g.nextIndex).postings pos).Tight
    rw [PatternIndex.postings_add]
    exact (h.tight pos).add _ _

theorem Indexed.erase {g : Graph} (h : g.Indexed) (i : Nat) : (g.erase i).Indexed := by
  cases ht : g.get? i with
  | none =>
    rw [erase_of_absent ht]
    exact h
  | some t =>
    refine ⟨?_, fun pos x j => ?_, fun pos => ?_⟩
    · rw [erase_of_get? ht]
      exact Log.Bounded.erase h.bounded i
    · rw [get?_erase, erase_of_get? ht, PatternIndex.postings_erase, Postings.mem_indices_erase,
        h.posted]
      by_cases hij : i = j
      · subst hij
        simp [ht]
      · simp [hij]
    · rw [erase_of_get? ht, PatternIndex.postings_erase]
      exact (h.tight pos).erase _ _

theorem Indexed.addAll {g : Graph} (h : g.Indexed) (ts : List Triple) :
    (g.addAll ts).Indexed := by
  induction ts generalizing g with
  | nil => exact h
  | cons t rest ih => exact ih (h.add t)

theorem Indexed.eraseEach {g : Graph} (h : g.Indexed) (indices : List Nat) :
    (g.eraseEach indices).Indexed := by
  induction indices generalizing g with
  | nil => exact h
  | cons i rest ih => exact ih (h.erase i)

/-- The order in which triples are removed leaves no trace. -/
theorem Indexed.eraseEach_congr {g : Graph} (h : g.Indexed) {indices order : List Nat}
    (hmem : ∀ i, i ∈ order ↔ i ∈ indices) : g.eraseEach order = g.eraseEach indices := by
  refine (h.eraseEach order).ext_get? (h.eraseEach indices) ?_ fun i => ?_
  · rw [nextIndex_eraseEach, nextIndex_eraseEach]
  · rw [get?_eraseEach, get?_eraseEach]
    exact if_congr (hmem i) rfl rfl

theorem indexed_ofTriples (ts : List Triple) : (ofTriples ts).Indexed :=
  indexed_empty.addAll ts

/-! ### Runs -/

/-- What can be done to a graph. -/
inductive Operation where
  /-- A new graph in place of the old one. -/
  | ofTriples (ts : List Triple)
  | add (t : Triple)
  | remove (i : Nat)
  | removeAll (indices : List Nat)
deriving DecidableEq, Repr

/-- What an operation answers. -/
inductive Answer where
  /-- Nothing but a new graph. -/
  | made
  | index (i : Nat)
  | triple (t : Triple)
  | triples (ts : List Triple)
  | refused (fault : NotFound)
deriving DecidableEq, Repr

/-- What an operation answers, and the graph that it leaves. -/
def act (g : Graph) : Operation → Answer × Graph
  | .ofTriples ts => (.made, ofTriples ts)
  | .add t =>
    let (i, g) := g.push t
    (.index i, g)
  | .remove i =>
    match g.removeInPlace i with
    | (.ok t, g) => (.triple t, g)
    | (.error fault, g) => (.refused fault, g)
  | .removeAll indices =>
    match g.removeAllInPlace indices with
    | (.ok ts, g) => (.triples ts, g)
    | (.error fault, g) => (.refused fault, g)

def perform (g : Graph) (op : Operation) : Graph :=
  (g.act op).2

/-- The graph after operations, one after the other. -/
def run (g : Graph) : List Operation → Graph
  | [] => g
  | op :: rest => run (g.perform op) rest

theorem perform_remove (g : Graph) (i : Nat) : g.perform (.remove i) = g.erase i := by
  cases ht : g.get? i with
  | none =>
    rw [perform, act, removeInPlace_of_absent ht]
    exact (erase_of_absent ht).symm
  | some t => rw [perform, act, removeInPlace_of_get? ht]

theorem perform_removeAll (g : Graph) (indices : List Nat) :
    g.perform (.removeAll indices) =
      if g.firstAbsent? [] indices = none then g.eraseEach (sortedIndices indices) else g := by
  cases hcheck : g.firstAbsent? [] indices with
  | some i =>
    rw [perform, act, removeAllInPlace_of_absent hcheck]
    rfl
  | none =>
    rw [perform, act, (removable_iff.mpr hcheck).removeAllInPlace_eq]
    rfl

/-- A graph is replaced, gets a triple, or loses some; an operation that is refused takes
nothing out. -/
theorem perform_cases (g : Graph) (op : Operation) :
    (∃ ts, op = .ofTriples ts ∧ g.perform op = ofTriples ts) ∨
      (∃ t, op = .add t ∧ g.perform op = g.add t) ∨
      ∃ indices, g.perform op = g.eraseEach indices := by
  cases op with
  | ofTriples ts => exact .inl ⟨ts, rfl, rfl⟩
  | add t => exact .inr (.inl ⟨t, rfl, rfl⟩)
  | remove i => exact .inr (.inr ⟨[i], perform_remove g i⟩)
  | removeAll indices =>
    rw [perform_removeAll]
    split
    · exact .inr (.inr ⟨_, rfl⟩)
    · exact .inr (.inr ⟨[], rfl⟩)

theorem Indexed.perform {g : Graph} (h : g.Indexed) (op : Operation) : (g.perform op).Indexed := by
  obtain ⟨ts, -, hg⟩ | ⟨t, -, hg⟩ | ⟨indices, hg⟩ := g.perform_cases op
  · exact hg ▸ indexed_ofTriples ts
  · exact hg ▸ h.add t
  · exact hg ▸ h.eraseEach indices

theorem Indexed.run {g : Graph} (h : g.Indexed) (ops : List Operation) : (g.run ops).Indexed := by
  induction ops generalizing g with
  | nil => exact h
  | cons op rest ih => exact ih (h.perform op)

theorem indexed_run (ops : List Operation) : (run ∅ ops).Indexed :=
  indexed_empty.run ops

end Graph

end ContextPolicy
