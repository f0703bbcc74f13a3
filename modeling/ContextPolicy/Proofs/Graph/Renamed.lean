import ContextPolicy.Proofs.Graph.Indexed

/-! Graphs with their nodes replaced.

Operations look at indices and never at nodes, so they are carried out, or refused, whatever
the nodes are. Performed on triples whose nodes are replaced, they make the graph with its
nodes replaced, index by index (`Renamed.run`). -/
namespace ContextPolicy.Graph

/-- A graph has the triples of another one under the same indices, with their nodes replaced,
and is about to give out the same index. -/
structure Renamed (f : Term → Term) (g h : Graph) : Prop where
  get?_eq : ∀ i, h.get? i = (g.get? i).map (Triple.mapNodes f)
  nextIndex_eq : h.nextIndex = g.nextIndex

variable {f : Term → Term} {g h : Graph}

/-! ### Entries -/

theorem entries_of_get?_map (hget : ∀ i, h.get? i = (g.get? i).map (Triple.mapNodes f)) :
    h.entries = g.entries.map fun e => (e.1, e.2.mapNodes f) := by
  symm
  apply Log.entries_eq_of_mem_iff
  · exact List.pairwise_map.mpr g.log.entries_ascending
  · intro i t
    show _ ↔ h.get? i = some t
    rw [hget, List.mem_map, Option.map_eq_some_iff]
    constructor
    · rintro ⟨⟨j, u⟩, hmem, heq⟩
      cases heq
      exact ⟨u, mem_entries_iff.mp hmem, rfl⟩
    · rintro ⟨u, hu, rfl⟩
      exact ⟨(i, u), mem_entries_iff.mpr hu, rfl⟩

theorem triples_of_get?_map (hget : ∀ i, h.get? i = (g.get? i).map (Triple.mapNodes f)) :
    h.triples = g.triples.map (Triple.mapNodes f) := by
  show h.entries.map (·.2) = (g.entries.map (·.2)).map _
  rw [entries_of_get?_map hget, List.map_map, List.map_map]
  rfl

/-! ### Operations -/

/-- The operation on triples with their nodes replaced. -/
def Operation.mapNodes (f : Term → Term) : Operation → Operation
  | .ofTriples ts => .ofTriples (ts.map (Triple.mapNodes f))
  | .add t => .add (t.mapNodes f)
  | .remove i => .remove i
  | .removeAll indices => .removeAll indices

namespace Renamed

theorem empty : Renamed f ∅ ∅ where
  get?_eq _ := rfl
  nextIndex_eq := rfl

theorem add (hr : Renamed f g h) (t : Triple) : Renamed f (g.add t) (h.add (t.mapNodes f)) where
  get?_eq i := by
    rw [get?_add, get?_add, hr.nextIndex_eq, hr.get?_eq]
    by_cases hi : i = g.nextIndex
    · rw [if_pos hi, if_pos hi, Option.map_some]
    · rw [if_neg hi, if_neg hi]
  nextIndex_eq := by rw [nextIndex_add, nextIndex_add, hr.nextIndex_eq]

theorem addAll (hr : Renamed f g h) (ts : List Triple) :
    Renamed f (g.addAll ts) (h.addAll (ts.map (Triple.mapNodes f))) := by
  induction ts generalizing g h with
  | nil => exact hr
  | cons t rest ih => exact ih (hr.add t)

theorem erase (hr : Renamed f g h) (i : Nat) : Renamed f (g.erase i) (h.erase i) where
  get?_eq j := by
    rw [get?_erase, get?_erase, hr.get?_eq]
    by_cases hij : i = j
    · rw [if_pos hij, if_pos hij, Option.map_none]
    · rw [if_neg hij, if_neg hij]
  nextIndex_eq := by rw [nextIndex_erase, nextIndex_erase, hr.nextIndex_eq]

theorem eraseEach (hr : Renamed f g h) (indices : List Nat) :
    Renamed f (g.eraseEach indices) (h.eraseEach indices) := by
  induction indices generalizing g h with
  | nil => exact hr
  | cons i rest ih => exact ih (hr.erase i)

theorem firstAbsent?_eq (hr : Renamed f g h) (before indices : List Nat) :
    h.firstAbsent? before indices = g.firstAbsent? before indices := by
  induction indices generalizing before with
  | nil => rfl
  | cons i rest ih => rw [firstAbsent?, firstAbsent?, hr.get?_eq, Option.isNone_map, ih]

theorem perform (hr : Renamed f g h) (op : Operation) :
    Renamed f (g.perform op) (h.perform (op.mapNodes f)) := by
  cases op with
  | ofTriples ts => exact empty.addAll ts
  | add t => exact hr.add t
  | remove i =>
    rw [Operation.mapNodes, perform_remove, perform_remove]
    exact hr.erase i
  | removeAll indices =>
    rw [Operation.mapNodes, perform_removeAll, perform_removeAll, hr.firstAbsent?_eq]
    split
    · exact hr.eraseEach _
    · exact hr

theorem run (hr : Renamed f g h) (ops : List Operation) :
    Renamed f (g.run ops) (h.run (ops.map (Operation.mapNodes f))) := by
  induction ops generalizing g h with
  | nil => exact hr
  | cons op rest ih => exact ih (hr.perform op)

end Renamed

end ContextPolicy.Graph
