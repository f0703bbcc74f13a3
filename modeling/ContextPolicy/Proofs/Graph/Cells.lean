import ContextPolicy.Proofs.Graph.Chain
import ContextPolicy.Proofs.Graph.Earliest

/-! A list among the triples of a graph.

`Chain.triples` takes a cell for each member, in order, and says of each cell what its first
and its rest are (`subjects_triples`, `triples_congr`). Where these triples stand in a graph,
and what stands between them, does not matter as long as nothing else is said of the firsts
and the rests of the cells. This is `Hosts`, and it goes over from a list to its tail
(`Hosts.tail`), so a head stands for its members in every graph that hosts them
(`Hosts.lists`). The members themselves are free: they may be cells, or `rdf:nil`. -/
namespace ContextPolicy

namespace Chain
variable {cell : Nat → Term} {k : Nat} {member : Term} {members : List Term}

/-- The cells of a list, one for each member. -/
def cells (cell : Nat → Term) (k : Nat) (members : List Term) : List Term :=
  (List.range' k members.length).map cell

theorem cells_cons (cell : Nat → Term) (k : Nat) (member : Term) (members : List Term) :
    cells cell k (member :: members) = cell k :: cells cell (k + 1) members := by
  rw [cells, List.length_cons, List.range'_succ, List.map_cons, cells]

theorem length_cells (cell : Nat → Term) (k : Nat) (members : List Term) :
    (cells cell k members).length = members.length := by
  rw [cells, List.length_map, List.length_range']

theorem length_triples (cell : Nat → Term) (k : Nat) (members : List Term) :
    (triples cell k members).length = 2 * members.length := by
  induction members generalizing k with
  | nil => rfl
  | cons member rest ih =>
    rw [triples, List.length_cons, List.length_cons, ih, List.length_cons]
    omega

/-- Each cell has two triples, and none has another subject. -/
theorem subjects_triples (cell : Nat → Term) (k : Nat) (members : List Term) :
    (triples cell k members).map (·.subject) =
      (cells cell k members).flatMap fun x => [x, x] := by
  induction members generalizing k with
  | nil => rfl
  | cons member rest ih =>
    rw [triples, List.map_cons, List.map_cons, ih, cells_cons, List.flatMap_cons]
    rfl

theorem subject_mem_cells {t : Triple} (ht : t ∈ triples cell k members) :
    t.subject ∈ cells cell k members := by
  have hmem := List.mem_map_of_mem (f := fun t : Triple => t.subject) ht
  rw [subjects_triples, List.mem_flatMap] at hmem
  obtain ⟨x, hx, hsubject⟩ := hmem
  have heq : t.subject = x := by simpa using hsubject
  exact heq ▸ hx

/-- Nothing but its cells counts for how a list is written. -/
theorem triples_congr {cell' : Nat → Term} {k' : Nat}
    (h : cells cell' k' members = cells cell k members) :
    head cell' k' members = head cell k members ∧
      triples cell' k' members = triples cell k members := by
  induction members generalizing k k' with
  | nil => exact ⟨rfl, rfl⟩
  | cons member rest ih =>
    rw [cells_cons, cells_cons, List.cons.injEq] at h
    obtain ⟨hhead, htriples⟩ := ih h.2
    refine ⟨h.1, ?_⟩
    rw [triples, triples, h.1, hhead, htriples]

/-- What is said of the first cell, where no other cell is the same node. -/
theorem mem_triples_of_head (hnew : cell k ∉ cells cell (k + 1) members) {t : Triple}
    (ht : t ∈ triples cell k (member :: members)) (hsubject : t.subject = cell k) :
    t = ⟨cell k, Names.Rdf.first, member⟩ ∨
      t = ⟨cell k, Names.Rdf.rest, head cell (k + 1) members⟩ := by
  rw [triples, List.mem_cons, List.mem_cons] at ht
  obtain h | h | h := ht
  · exact .inl h
  · exact .inr h
  · exact absurd (hsubject ▸ subject_mem_cells h) hnew

end Chain

namespace Graph
variable {g : Graph} {ts : List Triple} {cell : Nat → Term} {k : Nat} {member : Term}
  {members : List Term}

/-- The triples of a list are there, and no others with a cell's first or rest. -/
structure Hosts (ts : List Triple) (cell : Nat → Term) (k : Nat) (members : List Term) :
    Prop where
  written : ∀ t ∈ Chain.triples cell k members, t ∈ ts
  only : ∀ t ∈ ts, t.subject ∈ Chain.cells cell k members →
    t.predicate = Names.Rdf.first ∨ t.predicate = Names.Rdf.rest →
      t ∈ Chain.triples cell k members

theorem Hosts.tail (h : Hosts ts cell k (member :: members))
    (hnew : cell k ∉ Chain.cells cell (k + 1) members) : Hosts ts cell (k + 1) members where
  written t ht := h.written t (List.mem_cons_of_mem _ (List.mem_cons_of_mem _ ht))
  only t ht hcell hproperty := by
    have hall : t ∈ Chain.triples cell k (member :: members) := by
      refine h.only t ht ?_ hproperty
      rw [Chain.cells_cons]
      exact List.mem_cons_of_mem _ hcell
    rw [Chain.triples, List.mem_cons, List.mem_cons] at hall
    obtain rfl | rfl | htail := hall
    · exact absurd hcell hnew
    · exact absurd hcell hnew
    · exact htail

/-- The first cell has the first member, and the rest that it was given. -/
theorem Hosts.firstObject (h : Hosts g.triples cell k (member :: members)) (hg : g.Indexed)
    (hnew : cell k ∉ Chain.cells cell (k + 1) members) :
    g.firstObject (cell k) Names.Rdf.first = some member ∧
      g.firstObject (cell k) Names.Rdf.rest = some (Chain.head cell (k + 1) members) := by
  have hcell : cell k ∈ Chain.cells cell k (member :: members) := by
    rw [Chain.cells_cons]
    exact List.mem_cons_self
  have hdistinct : Names.Rdf.first ≠ Names.Rdf.rest := by decide
  let first : Triple := ⟨cell k, Names.Rdf.first, member⟩
  let rest : Triple := ⟨cell k, Names.Rdf.rest, Chain.head cell (k + 1) members⟩
  have hfirst : first ∈ g.triples := h.written first List.mem_cons_self
  have hrest : rest ∈ g.triples := h.written rest (List.mem_cons_of_mem _ List.mem_cons_self)
  constructor
  · refine hg.firstObject_eq_some hfirst fun u hu hsubject hpredicate => ?_
    have hmem := h.only u hu (hsubject ▸ hcell) (.inl hpredicate)
    obtain rfl | rfl := Chain.mem_triples_of_head hnew hmem hsubject
    · rfl
    · exact absurd hpredicate.symm hdistinct
  · refine hg.firstObject_eq_some hrest fun u hu hsubject hpredicate => ?_
    have hmem := h.only u hu (hsubject ▸ hcell) (.inr hpredicate)
    obtain rfl | rfl := Chain.mem_triples_of_head hnew hmem hsubject
    · exact absurd hpredicate hdistinct
    · rfl

/-- Whatever else a graph holds, the head of a list that it hosts stands for the members. -/
theorem Hosts.lists (h : Hosts g.triples cell k members) (hg : g.Indexed)
    (hdistinct : (Chain.cells cell k members).Nodup)
    (hnil : Chain.nil ∉ Chain.cells cell k members) :
    g.Lists (Chain.head cell k members) members := by
  induction members generalizing k with
  | nil => exact .nil
  | cons member rest ih =>
    rw [Chain.cells_cons, List.nodup_cons] at hdistinct
    rw [Chain.cells_cons, List.mem_cons, not_or] at hnil
    obtain ⟨hfirst, hrest⟩ := h.firstObject hg hdistinct.1
    exact .cons (Ne.symm hnil.1) hfirst hrest (ih (h.tail hdistinct.1) hdistinct.2 hnil.2)

/-- A list takes one cell for each member and has two triples for each cell. Whatever its
members are, and in whatever order its triples come to a graph and between which others, the
head of the list stands for them, if nothing else is said of a cell's first or rest. -/
theorem decode_interleaved (cell : Nat → Term) (k : Nat) (members : List Term)
    (hdistinct : (Chain.cells cell k members).Nodup)
    (hnil : Chain.nil ∉ Chain.cells cell k members) :
    let cells := Chain.cells cell k members
    let chain := Chain.triples cell k members
    let head := Chain.head cell k members
    cells.length = members.length ∧
    chain.map (·.subject) = cells.flatMap (fun x => [x, x]) ∧
    chain.length = 2 * members.length ∧
    (∀ cell' k', Chain.cells cell' k' members = cells →
      Chain.head cell' k' members = head ∧ Chain.triples cell' k' members = chain) ∧
    ∀ (ops : List Operation) (others added : List Triple), added.Perm (chain ++ others) →
      (∀ t ∈ (run ∅ ops).triples ++ others, t.subject ∈ cells →
        t.predicate = Names.Rdf.first ∨ t.predicate = Names.Rdf.rest → t ∈ chain) →
      ((run ∅ ops).addAll added).decode head = .ok members := by
  intro cells chain head
  refine ⟨Chain.length_cells cell k members, Chain.subjects_triples cell k members,
    Chain.length_triples cell k members, fun _ _ => Chain.triples_congr,
    fun ops others added hperm honly => ?_⟩
  have hmem : ∀ t, t ∈ ((run ∅ ops).addAll added).triples ↔
      t ∈ (run ∅ ops).triples ++ others ∨ t ∈ chain := by
    intro t
    rw [triples_addAll (indexed_run ops).bounded, List.mem_append, hperm.mem_iff, List.mem_append, List.mem_append]
    tauto
  have hosts : Hosts ((run ∅ ops).addAll added).triples cell k members := by
    refine ⟨fun t ht => (hmem t).mpr (.inr ht), fun t ht hcell hproperty => ?_⟩
    obtain hother | hchain := (hmem t).mp ht
    · exact honly t hother hcell hproperty
    · exact hchain
  exact (hosts.lists ((indexed_run ops).addAll added) hdistinct hnil).decode

/-- A list with two of its cells and `rdf:nil` for members, written from the end on, in a graph
that says more of a cell, said otherwise of its rest before, and says of `rdf:nil` what is said
of cells. -/
theorem decode_interleaved_backwards :
    let cell : Nat → Term := fun n => .blank ("c" ++ Nat.repr n)
    let members : List Term := [cell 1, Chain.nil, cell 0, cell 1]
    let cells := Chain.cells cell 0 members
    let chain := Chain.triples cell 0 members
    let ops : List Operation := [.ofTriples [⟨cell 0, Names.Rdf.rest, cell 0⟩,
      ⟨cell 1, "urn:org#note", .plain "second"⟩], .remove 0]
    let note : Triple := ⟨Chain.nil, Names.Rdf.first, cell 2⟩
    let added := note :: chain.reverse
    cells.Nodup ∧ Chain.nil ∉ cells ∧ added.Perm (chain ++ [note]) ∧
      (∀ t ∈ (run ∅ ops).triples ++ [note], t.subject ∈ cells →
        t.predicate = Names.Rdf.first ∨ t.predicate = Names.Rdf.rest → t ∈ chain) ∧
      ((run ∅ ops).addAll added).decode (cell 0) = .ok members := by
  intro cell members cells chain ops note added
  have hdistinct : cells.Nodup := by decide +kernel
  have hnil : Chain.nil ∉ cells := by decide +kernel
  have hperm : added.Perm (chain ++ [note]) := by decide +kernel
  have honly : ∀ t ∈ (run ∅ ops).triples ++ [note], t.subject ∈ cells →
      t.predicate = Names.Rdf.first ∨ t.predicate = Names.Rdf.rest → t ∈ chain := by
    decide +kernel
  obtain ⟨-, -, -, -, hdecode⟩ := decode_interleaved cell 0 members hdistinct hnil
  exact ⟨hdistinct, hnil, hperm, honly, hdecode ops [note] added hperm honly⟩

end Graph

end ContextPolicy
