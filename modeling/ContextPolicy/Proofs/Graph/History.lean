import ContextPolicy.Proofs.Graph.Removal

/-! A graph as the log of what was done to it.

A history says what was stored since a graph was made, in that order, and which indices were
removed. It follows from the operations alone, and so does what each of them is to answer:
`History.after` and `History.answer` know nothing of graphs. In a history every triple that was
stored has a slot, whose number is how many were stored before it, and the slot is empty once the
index is removed.

A graph, its counter and its two views, follows a history if it has given out as many indices and
holds what the slots do (`Follows`). Every operation then answers as it should and is followed
again (`Follows.act`), whether it is carried out or refused, and so is every run. -/
namespace ContextPolicy

namespace Graph

/-! ### Histories -/

/-- What has been done to a graph since it was made. -/
structure History where
  /-- The triples that were stored, the first one in front. -/
  inserted : List Triple
  /-- The indices that were removed. -/
  removed : List Nat
deriving DecidableEq, Repr

namespace History

instance : EmptyCollection History :=
  ⟨⟨[], []⟩⟩

/-- What is left of an insertion. -/
def slot (h : History) (i : Nat) : Option Triple :=
  if i ∈ h.removed then none else h.inserted[i]?

/-- The slots of all insertions. -/
def slots (h : History) : List (Option Triple) :=
  h.inserted.mapIdx fun i t => if i ∈ h.removed then none else some t

/-- The insertions that were not taken back, with their numbers. -/
def live (h : History) : List (Nat × Triple) :=
  (h.inserted.zipIdx.filter (·.2 ∉ h.removed)).map Prod.swap

/-- The first of several indices whose slot is empty, or that stands in the list before. -/
def refusal? (h : History) (indices : List Nat) : Option Nat :=
  (indices.zipIdx.find? fun e => (h.slot e.1).isNone || e.1 ∈ indices.take e.2).map (·.1)

/-- What an operation is to answer. -/
def answer (h : History) : Operation → Answer
  | .ofTriples _ => .made
  | .add _ => .index h.inserted.length
  | .remove i =>
    match h.slot i with
    | some t => .triple t
    | none => .refused ⟨i⟩
  | .removeAll indices =>
    match h.refusal? indices with
    | some i => .refused ⟨i⟩
    | none => .triples ((h.live.filter (·.1 ∈ indices)).map (·.2))

/-- The history behind an operation. -/
def after (h : History) : Operation → History
  | .ofTriples ts => ⟨ts, []⟩
  | .add t => ⟨h.inserted ++ [t], h.removed⟩
  | .remove i => if (h.slot i).isSome then ⟨h.inserted, h.removed ++ [i]⟩ else h
  | .removeAll indices =>
    if (h.refusal? indices).isNone then ⟨h.inserted, h.removed ++ indices⟩ else h

/-- The history behind operations, one after the other. -/
def run (h : History) : List Operation → History
  | [] => h
  | op :: rest => run (h.after op) rest

/-- What operations are to answer, one after the other. -/
def answers (h : History) : List Operation → List Answer
  | [] => []
  | op :: rest => h.answer op :: answers (h.after op) rest

variable {h : History} {i : Nat} {t : Triple}

theorem slot_eq_some_iff : h.slot i = some t ↔ h.inserted[i]? = some t ∧ i ∉ h.removed := by
  rw [slot]
  split
  · next hi => simp [hi]
  · next hi => simp [hi]

theorem mem_live_iff : (i, t) ∈ h.live ↔ h.slot i = some t := by
  rw [slot_eq_some_iff, live, List.mem_map]
  constructor
  · rintro ⟨⟨u, j⟩, hmem, heq⟩
    obtain ⟨hmem, hj⟩ := List.mem_filter.mp hmem
    cases heq
    exact ⟨List.mk_mem_zipIdx_iff_getElem?.mp hmem, of_decide_eq_true hj⟩
  · rintro ⟨ht, hi⟩
    exact ⟨(t, i), List.mem_filter.mpr
      ⟨List.mk_mem_zipIdx_iff_getElem?.mpr ht, decide_eq_true hi⟩, rfl⟩

/-- The numbers of what is live: all but those that were removed. -/
theorem map_live (h : History) :
    h.live.map (·.1) = (List.range' 0 h.inserted.length).filter (· ∉ h.removed) := by
  rw [← List.zipIdx_map_snd 0 h.inserted, List.filter_map, live, List.map_map]
  rfl

theorem live_ascending (h : History) : h.live.Pairwise (·.1 < ·.1) := by
  refine List.pairwise_map.mp ?_
  rw [map_live]
  exact List.Pairwise.filter _ List.pairwise_lt_range'

/-- Each removal takes one of the insertions away. -/
theorem length_live (honce : h.removed.Nodup) (hgiven : ∀ i ∈ h.removed, i < h.inserted.length) :
    h.live.length + h.removed.length = h.inserted.length := by
  let numbers := List.range' 0 h.inserted.length
  have hnodup : numbers.Nodup := List.nodup_range'
  have hperm : h.removed.Perm (numbers.filter fun i => !decide (i ∉ h.removed)) := by
    refine (List.perm_ext_iff_of_nodup honce (hnodup.filter _)).mpr fun i => ?_
    simp only [List.mem_filter, decide_not, Bool.not_not, decide_eq_true_eq]
    refine ⟨fun hi => ⟨List.mem_range'_1.mpr ⟨Nat.zero_le i, ?_⟩, hi⟩, fun hi => hi.2⟩
    rw [Nat.zero_add]
    exact hgiven i hi
  calc h.live.length + h.removed.length
      = (numbers.filter (· ∉ h.removed)).length +
          (numbers.filter fun i => !decide (i ∉ h.removed)).length := by
        rw [← map_live, List.length_map, ← hperm.length_eq]
    _ = numbers.length := (List.length_eq_length_filter_add _).symm
    _ = h.inserted.length := List.length_range'

end History

/-! ### Graphs and histories -/

/-- What operations answer, one after the other. -/
def answers (g : Graph) : List Operation → List Answer
  | [] => []
  | op :: rest => (g.act op).1 :: answers (g.perform op) rest

/-- What is stored under each of the indices that were given out. -/
def slots (g : Graph) : List (Option Triple) :=
  (List.range g.nextIndex).map g.get?

/-- A graph holds what its history says. -/
structure Follows (g : Graph) (h : History) : Prop where
  nextIndex : g.nextIndex = h.inserted.length
  slot : ∀ i, g.get? i = h.slot i
  /-- No index is removed twice, and none before it is given out. -/
  once : h.removed.Nodup
  given : ∀ i ∈ h.removed, i < h.inserted.length

/-- The search for an index that cannot be removed, where some were met already. -/
theorem firstAbsent?_eq_find? (g : Graph) (met indices : List Nat) :
    g.firstAbsent? met indices = (indices.zipIdx.find? fun e =>
      (g.get? e.1).isNone || (e.1 ∈ met || e.1 ∈ indices.take e.2)).map (·.1) := by
  induction indices generalizing met with
  | nil => rfl
  | cons i rest ih =>
    rw [firstAbsent?, List.zipIdx_cons, List.find?_cons, List.zipIdx_succ, List.find?_map]
    simp only [List.take_zero, List.not_mem_nil, decide_false, Bool.or_false]
    split
    · next hi =>
      rw [hi]
      rfl
    · next hi =>
      rw [Bool.not_eq_true] at hi
      simp only [hi, ih, Option.map_map]
      -- The index in front has been met when the others are looked at.
      congr 2
      funext e
      simp [List.take_succ_cons, Bool.or_assoc, Bool.or_left_comm]

namespace Follows
variable {g : Graph} {h : History} {i : Nat} {t : Triple}

theorem entries_eq (hf : g.Follows h) : g.entries = h.live := by
  symm
  refine Log.entries_eq_of_mem_iff h.live_ascending fun i t => ?_
  rw [History.mem_live_iff, ← hf.slot]
  rfl

theorem slots_eq (hf : g.Follows h) : g.slots = h.slots := by
  refine List.ext_getElem ?_ fun i hi hi' => ?_
  · rw [slots, History.slots, List.length_map, List.length_range, List.length_mapIdx, hf.nextIndex]
  · have hlt : i < h.inserted.length := by simpa [History.slots] using hi'
    simp [slots, History.slots, hf.slot, History.slot, hlt]

theorem size_add_length (hf : g.Follows h) : g.size + h.removed.length = h.inserted.length := by
  have hsize : g.size = h.live.length := by
    rw [size_eq, ← hf.entries_eq]
    exact List.length_map _
  rw [hsize, History.length_live hf.once hf.given]

/-! ### Operations -/

theorem ofTriples (ts : List Triple) : (Graph.ofTriples ts).Follows ⟨ts, []⟩ where
  nextIndex := (nextIndex_addAll ∅ ts).trans (Nat.zero_add _)
  slot i := get?_ofTriples ts i
  once := List.nodup_nil
  given _ hi := absurd hi List.not_mem_nil

theorem add (hf : g.Follows h) (t : Triple) :
    (g.add t).Follows ⟨h.inserted ++ [t], h.removed⟩ where
  nextIndex := by rw [nextIndex_add, hf.nextIndex, List.length_append, List.length_singleton]
  slot i := by
    rw [get?_add, hf.nextIndex, hf.slot, History.slot, History.slot]
    by_cases hi : i = h.inserted.length
    · have hnew : i ∉ h.removed := fun hmem => Nat.lt_irrefl _ (hi ▸ hf.given i hmem)
      rw [if_pos hi, if_neg hnew, hi, List.getElem?_concat_length]
    · rw [if_neg hi]
      split
      · rfl
      · rw [List.getElem?_append]
        split
        · rfl
        · rw [List.getElem?_eq_none (by omega), List.getElem?_eq_none (by simp; omega)]
  once := hf.once
  given i hi := by
    rw [List.length_append]
    exact Nat.lt_add_right _ (hf.given i hi)

/-- Triples are taken out in any order. -/
theorem eraseEach (hf : g.Follows h) {indices order : List Nat} (hr : g.Removable indices)
    (hmem : ∀ i, i ∈ order ↔ i ∈ indices) :
    (g.eraseEach order).Follows ⟨h.inserted, h.removed ++ indices⟩ := by
  have hlive : ∀ i ∈ indices, ∃ t, h.inserted[i]? = some t ∧ i ∉ h.removed := by
    intro i hi
    obtain ⟨t, ht⟩ := Option.isSome_iff_exists.mp (hr.live i hi)
    rw [hf.slot] at ht
    exact ⟨t, History.slot_eq_some_iff.mp ht⟩
  refine ⟨(nextIndex_eraseEach g order).trans hf.nextIndex, fun i => ?_, ?_, fun i hi => ?_⟩
  · rw [get?_eraseEach, hf.slot, History.slot, History.slot]
    by_cases hi : i ∈ indices
    · rw [if_pos ((hmem i).mpr hi), if_pos (List.mem_append_right _ hi)]
    · rw [if_neg (mt (hmem i).mp hi)]
      simp only [List.mem_append, hi, or_false]
  · refine List.nodup_append.mpr ⟨hf.once, hr.distinct, fun i hi j hj hij => ?_⟩
    obtain ⟨t, -, hkept⟩ := hlive j hj
    exact hkept (hij ▸ hi)
  · rcases List.mem_append.mp hi with hi | hi
    · exact hf.given i hi
    · obtain ⟨t, ht, -⟩ := hlive i hi
      exact (List.getElem?_eq_some_iff.mp ht).1

theorem refusal?_eq (hf : g.Follows h) (indices : List Nat) :
    h.refusal? indices = g.firstAbsent? [] indices := by
  rw [firstAbsent?_eq_find?, History.refusal?]
  simp only [hf.slot, List.not_mem_nil, decide_false, Bool.false_or]

/-- An operation answers what it is to answer, and leaves what it is to leave. -/
theorem act (hf : g.Follows h) (op : Operation) :
    (g.act op).1 = h.answer op ∧ (g.perform op).Follows (h.after op) := by
  cases op with
  | ofTriples ts => exact ⟨rfl, .ofTriples ts⟩
  | add t => exact ⟨congrArg Answer.index hf.nextIndex, hf.add t⟩
  | remove i =>
    rw [Graph.act, History.answer, perform_remove, History.after, ← hf.slot]
    cases ht : g.get? i with
    | none =>
      rw [removeInPlace_of_absent ht, erase_of_absent ht]
      exact ⟨rfl, hf⟩
    | some t =>
      have hr : g.Removable [i] := by
        refine ⟨List.nodup_singleton i, fun j hj => ?_⟩
        rw [List.mem_singleton.mp hj, ht]
        rfl
      rw [removeInPlace_of_get? ht]
      exact ⟨rfl, hf.eraseEach hr fun j => Iff.rfl⟩
  | removeAll indices =>
    rw [Graph.act, History.answer, perform_removeAll, History.after, hf.refusal?_eq]
    cases hcheck : g.firstAbsent? [] indices with
    | some i =>
      rw [removeAllInPlace_of_absent hcheck]
      exact ⟨rfl, hf⟩
    | none =>
      have hr : g.Removable indices := removable_iff.mpr hcheck
      rw [hr.removeAllInPlace_eq, hr.filterMap_get?, hf.entries_eq]
      exact ⟨rfl, hf.eraseEach hr fun i => mem_sortedIndices⟩

theorem run (hf : g.Follows h) (ops : List Operation) :
    g.answers ops = h.answers ops ∧ (g.run ops).Follows (h.run ops) := by
  induction ops generalizing g h with
  | nil => exact ⟨rfl, hf⟩
  | cons op rest ih =>
    obtain ⟨hanswer, hafter⟩ := hf.act op
    obtain ⟨hanswers, hrun⟩ := ih hafter
    refine ⟨?_, hrun⟩
    rw [Graph.answers, History.answers, hanswer, hanswers]

end Follows

/-! ### Slots that stay empty -/

/-- The operation is on the graph itself and puts no new one in its place. -/
def Operation.InPlace : Operation → Prop
  | .ofTriples _ => False
  | _ => True

/-- The index was given out, and nothing is stored under it any more. -/
def Spent (g : Graph) (i : Nat) : Prop :=
  i < g.nextIndex ∧ g.get? i = none

theorem Spent.eraseEach {g : Graph} {i : Nat} (h : g.Spent i) (indices : List Nat) :
    (g.eraseEach indices).Spent i := by
  refine ⟨(nextIndex_eraseEach g indices).symm ▸ h.1, ?_⟩
  rw [get?_eraseEach, h.2, ite_self]

theorem Spent.perform {g : Graph} {i : Nat} (h : g.Spent i) {op : Operation} (hop : op.InPlace) :
    (g.perform op).Spent i := by
  obtain ⟨ts, rfl, -⟩ | ⟨t, -, hg⟩ | ⟨indices, hg⟩ := g.perform_cases op
  · exact hop.elim
  · rw [hg, Spent, nextIndex_add, get?_add, if_neg (Nat.ne_of_lt h.1)]
    exact ⟨Nat.lt_succ_of_lt h.1, h.2⟩
  · exact hg ▸ h.eraseEach indices

theorem Spent.run {g : Graph} {i : Nat} (h : g.Spent i) {ops : List Operation}
    (hops : ∀ op ∈ ops, op.InPlace) : (g.run ops).Spent i := by
  induction ops generalizing g with
  | nil => exact h
  | cons op rest ih =>
    exact ih (h.perform (hops op List.mem_cons_self)) fun op' h' =>
      hops op' (List.mem_cons_of_mem op h')

theorem removeInPlace_ok_iff {g g' : Graph} {i : Nat} {t : Triple} :
    g.removeInPlace i = (.ok t, g') ↔ g.get? i = some t ∧ g' = g.erase i := by
  cases ht : g.get? i with
  | none =>
    rw [removeInPlace_of_absent ht]
    simp
  | some u =>
    rw [removeInPlace_of_get? ht]
    simp [eq_comm]

/-- After every run, a graph is the log of what was done to it. All operations have answered as
the history says that they are to, and a slot is left for each insertion, empty if it was taken
back; the next triple gets the next slot. An index holds what was inserted under it until it is
removed, and the entries are what was inserted and not removed, in order. A removal succeeds
exactly where there is something to remove, gives back what was inserted there, leaves every
other slot as it is, and empties its own for good; one that is refused changes nothing. -/
theorem run_is_log (ops : List Operation) :
    let g := run ∅ ops
    let h := History.run ∅ ops
    answers ∅ ops = History.answers ∅ ops ∧
    g.slots = h.slots ∧
    (∀ t, (g.push t).1 = h.inserted.length) ∧
    (∀ i t, g.get? i = some t ↔ h.inserted[i]? = some t ∧ i ∉ h.removed) ∧
    g.entries = h.live ∧ g.triples = h.live.map (·.2) ∧
    g.entries.Pairwise (·.1 < ·.1) ∧
    g.size + h.removed.length = h.inserted.length ∧
    (∀ i t, (g.removeInPlace i).1 = .ok t ↔ h.inserted[i]? = some t ∧ i ∉ h.removed) ∧
    (∀ i t g', g.removeInPlace i = (.ok t, g') →
      g'.nextIndex = g.nextIndex ∧ (∀ j, j ≠ i → g'.get? j = g.get? j) ∧
      ∀ later : List Operation, (∀ op ∈ later, op.InPlace) → (g'.run later).get? i = none) ∧
    (∀ i fault, (g.removeInPlace i).1 = .error fault → (g.removeInPlace i).2 = g) ∧
    ∀ indices fault, (g.removeAllInPlace indices).1 = .error fault →
      (g.removeAllInPlace indices).2 = g := by
  intro g h
  obtain ⟨hanswers, hf⟩ : answers ∅ ops = History.answers ∅ ops ∧ g.Follows h :=
    Follows.run (.ofTriples []) ops
  have hget : ∀ i t, g.get? i = some t ↔ h.inserted[i]? = some t ∧ i ∉ h.removed :=
    fun i t => by rw [hf.slot, History.slot_eq_some_iff]
  refine ⟨hanswers, hf.slots_eq, fun t => hf.nextIndex, hget, hf.entries_eq,
    congrArg (List.map Prod.snd) hf.entries_eq, g.log.entries_ascending, hf.size_add_length,
    fun i t => ?_, fun i t g' hok => ?_, fun i fault herror => ?_, fun indices fault herror => ?_⟩
  · rw [← hget]
    cases ht : g.get? i with
    | none => simp [removeInPlace_of_absent ht]
    | some u => simp [removeInPlace_of_get? ht]
  · obtain ⟨ht, rfl⟩ := removeInPlace_ok_iff.mp hok
    have hspent : (g.erase i).Spent i := by
      refine ⟨?_, by rw [get?_erase, if_pos rfl]⟩
      rw [nextIndex_erase]
      exact (indexed_run ops).bounded i t ht
    refine ⟨nextIndex_erase g i, fun j hj => ?_, fun later hlater => (hspent.run hlater).2⟩
    rw [get?_erase, if_neg hj.symm]
  · cases ht : g.get? i with
    | none => rw [removeInPlace_of_absent ht]
    | some t =>
      rw [removeInPlace_of_get? ht] at herror
      cases herror
  · cases hcheck : g.firstAbsent? [] indices with
    | none =>
      rw [(removable_iff.mpr hcheck).removeAllInPlace_eq] at herror
      cases herror
    | some i => rw [removeAllInPlace_of_absent hcheck]

end Graph

end ContextPolicy
