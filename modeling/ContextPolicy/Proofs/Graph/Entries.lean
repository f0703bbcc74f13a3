import Mathlib.Data.List.Sort
import ContextPolicy.Graph

/-! The entries of a graph under its changes.

What a graph holds is the list of its entries, in ascending order of their indices. A new
triple comes last, a removed one leaves a gap and moves nothing: `entries_add` and
`entries_erase` say so, and everything about lists of triples follows from these two.

That a new triple comes last takes a counter that is ahead of every index (`Bounded`), which each
operation keeps.

Removals can be refused, and then they leave the graph as it is, for what is not stored is erased
without a trace (`removeInPlace_of_absent`) and several indices are looked up before the first of
them is (`removeAllInPlace_of_absent`). Otherwise they hand the triples back, and `erase` and
`eraseEach` are what they leave (`removeInPlace_of_get?`, `Removable.removeAllInPlace_eq`). -/
namespace ContextPolicy

theorem IndexSet.toList_ascending (set : IndexSet) : set.toList.Pairwise (· < ·) :=
  Std.ExtTreeSet.ordered_toList.imp Nat.compare_eq_lt.mp

/-! ### Entries of a log -/

namespace Log

/-- A log is what it gives under each index, and how many indices it has given out. -/
theorem ext_get? {l m : Log} (hnext : l.nextIndex = m.nextIndex)
    (hget : ∀ i, l.get? i = m.get? i) : l = m := by
  cases l with | mk n stored
  cases m with | mk m others
  exact congr (congrArg mk hnext) (Std.ExtTreeMap.ext_getElem? fun {i} => hget i)

/-- The counter is ahead of every index that a triple is stored under. -/
def Bounded (l : Log) : Prop :=
  ∀ i t, l.get? i = some t → i < l.nextIndex

theorem bounded_empty : Bounded ∅ := by
  intro i t ht
  rw [get?_empty] at ht
  cases ht

theorem Bounded.add {l : Log} (h : l.Bounded) (t : Triple) : (l.add t).Bounded := by
  intro i u hu
  rw [get?_add] at hu
  rw [nextIndex_add]
  split at hu
  · next hi => exact hi ▸ Nat.lt_succ_self _
  · exact Nat.lt_succ_of_lt (h i u hu)

theorem Bounded.erase {l : Log} (h : l.Bounded) (i : Nat) : (l.erase i).Bounded := by
  intro j u hu
  rw [get?_erase] at hu
  split at hu
  · cases hu
  · exact h j u hu

theorem erase_of_absent {l : Log} {i : Nat} (h : l.get? i = none) : l.erase i = l := by
  refine ext_get? (nextIndex_erase l i) fun j => ?_
  rw [get?_erase]
  split
  · next hij => rw [← hij, h]
  · rfl

theorem entries_ascending (l : Log) : l.entries.Pairwise (·.1 < ·.1) :=
  Std.ExtTreeMap.ordered_keys_toList.imp Nat.compare_eq_lt.mp

/-- Entries in ascending order are all the entries as soon as they are the stored ones. -/
theorem entries_eq_of_mem_iff {l : Log} {es : List (Nat × Triple)}
    (hes : es.Pairwise (·.1 < ·.1)) (h : ∀ i t, (i, t) ∈ es ↔ l.get? i = some t) :
    es = l.entries := by
  have : Std.Irrefl fun a b : Nat × Triple => a.1 < b.1 := ⟨fun a => Nat.lt_irrefl a.1⟩
  refine hes.eq_of_mem_iff l.entries_ascending fun e => ?_
  rw [h e.1 e.2, mem_entries_iff]

theorem entries_add {l : Log} (h : l.Bounded) (t : Triple) :
    (l.add t).entries = l.entries ++ [(l.nextIndex, t)] := by
  symm
  apply entries_eq_of_mem_iff
  · rw [List.pairwise_append]
    refine ⟨l.entries_ascending, List.pairwise_singleton _ _, fun a ha b hb => ?_⟩
    rw [List.mem_singleton.mp hb]
    exact h a.1 a.2 (mem_entries_iff.mp ha)
  · intro i u
    rw [List.mem_append, List.mem_singleton, mem_entries_iff, get?_add, Prod.mk.injEq]
    by_cases hi : i = l.nextIndex
    · subst hi
      have hnone : l.get? l.nextIndex ≠ some u := fun hu => Nat.lt_irrefl _ (h _ _ hu)
      simp [hnone, eq_comm]
    · simp [hi]

theorem entries_erase (l : Log) (i : Nat) :
    (l.erase i).entries = l.entries.filter (·.1 ≠ i) := by
  symm
  apply entries_eq_of_mem_iff
  · exact l.entries_ascending.filter _
  · intro j u
    rw [List.mem_filter, mem_entries_iff, get?_erase]
    by_cases hj : i = j
    · simp [hj]
    · simp [hj, Ne.symm hj]

end Log

namespace Graph

@[simp] theorem get?_empty (i : Nat) : (∅ : Graph).get? i = none :=
  rfl

theorem mem_entries_iff {g : Graph} {i : Nat} {t : Triple} :
    (i, t) ∈ g.entries ↔ g.get? i = some t :=
  Log.mem_entries_iff

theorem size_eq (g : Graph) : g.size = g.triples.length := by
  show g.log.stored.size = (g.log.stored.toList.map (·.2)).length
  rw [List.length_map, Std.ExtTreeMap.length_toList]

/-- The counter of the log is ahead of every index in use. -/
def Bounded (g : Graph) : Prop :=
  g.log.Bounded

theorem bounded_empty : Bounded ∅ :=
  Log.bounded_empty

theorem Bounded.add {g : Graph} (h : g.Bounded) (t : Triple) : (g.add t).Bounded :=
  Log.Bounded.add h t

/-! ### New triples -/

theorem get?_add (g : Graph) (t : Triple) (i : Nat) :
    (g.add t).get? i = if i = g.nextIndex then some t else g.get? i :=
  Log.get?_add g.log t i

theorem nextIndex_add (g : Graph) (t : Triple) : (g.add t).nextIndex = g.nextIndex + 1 :=
  Log.nextIndex_add g.log t

theorem nextIndex_addAll (g : Graph) (ts : List Triple) :
    (g.addAll ts).nextIndex = g.nextIndex + ts.length := by
  induction ts generalizing g with
  | nil => rfl
  | cons t rest ih =>
    show ((g.add t).addAll rest).nextIndex = _
    rw [ih, nextIndex_add, List.length_cons, Nat.add_assoc, Nat.add_comm 1]

/-- New triples leave the old ones where they are. -/
theorem get?_addAll_of_lt {g : Graph} {i : Nat} (hi : i < g.nextIndex) (ts : List Triple) :
    (g.addAll ts).get? i = g.get? i := by
  induction ts generalizing g with
  | nil => rfl
  | cons t rest ih =>
    show ((g.add t).addAll rest).get? i = _
    rw [ih (by rw [nextIndex_add]; omega), get?_add, if_neg (Nat.ne_of_lt hi)]

/-- New triples take the indices from the next one on. -/
theorem get?_addAll_add {g : Graph} (h : g.Bounded) (ts : List Triple) (k : Nat) :
    (g.addAll ts).get? (g.nextIndex + k) = ts[k]? := by
  induction ts generalizing g k with
  | nil =>
    cases ht : g.get? (g.nextIndex + k) with
    | none => exact ht
    | some t =>
      have hlt : g.nextIndex + k < g.nextIndex := h _ _ ht
      omega
  | cons t rest ih =>
    show ((g.add t).addAll rest).get? _ = _
    cases k with
    | zero =>
      rw [Nat.add_zero, get?_addAll_of_lt (by rw [nextIndex_add]; omega), get?_add, if_pos rfl]
      rfl
    | succ k =>
      have hnext : g.nextIndex + (k + 1) = (g.add t).nextIndex + k := by
        rw [nextIndex_add]
        omega
      rw [hnext, ih (h.add t), List.getElem?_cons_succ]

theorem triples_add {g : Graph} (h : g.Bounded) (t : Triple) :
    (g.add t).triples = g.triples ++ [t] := by
  show (g.log.add t).entries.map (·.2) = _
  rw [Log.entries_add h, List.map_append]
  rfl

/-- The triples of a list are stored behind those that are there, in their order. -/
theorem triples_addAll {g : Graph} (h : g.Bounded) (ts : List Triple) :
    (g.addAll ts).triples = g.triples ++ ts := by
  induction ts generalizing g with
  | nil => exact (List.append_nil _).symm
  | cons t rest ih =>
    show ((g.add t).addAll rest).triples = _
    rw [ih (h.add t), triples_add h, List.append_assoc, List.singleton_append]

theorem mem_triples_iff {g : Graph} {t : Triple} : t ∈ g.triples ↔ ∃ i, g.get? i = some t := by
  constructor
  · intro ht
    obtain ⟨⟨i, u⟩, hmem, rfl⟩ := List.mem_map.mp ht
    exact ⟨i, mem_entries_iff.mp hmem⟩
  · exact fun ⟨i, hi⟩ => Log.mem_triples_of_get? hi

/-- Nothing else comes into a graph, wherever the new triples are stored. -/
theorem mem_triples_addAll {g : Graph} {ts : List Triple} {t : Triple}
    (h : t ∈ (g.addAll ts).triples) : t ∈ g.triples ∨ t ∈ ts := by
  induction ts generalizing g with
  | nil => exact .inl h
  | cons u rest ih =>
    rcases ih h with hadd | hrest
    · obtain ⟨i, hi⟩ := mem_triples_iff.mp hadd
      rw [get?_add] at hi
      split at hi
      · cases hi
        exact .inr List.mem_cons_self
      · exact .inl (mem_triples_iff.mpr ⟨i, hi⟩)
    · exact .inr (List.mem_cons_of_mem u hrest)

theorem triples_ofTriples (ts : List Triple) : (ofTriples ts).triples = ts :=
  triples_addAll bounded_empty ts

theorem get?_ofTriples (ts : List Triple) (i : Nat) : (ofTriples ts).get? i = ts[i]? := by
  have hget := get?_addAll_add bounded_empty ts i
  rwa [show (∅ : Graph).nextIndex = 0 from rfl, Nat.zero_add] at hget

/-! ### Removed triples -/

/-- The graph that a removal leaves: the same one if nothing is stored under the index. -/
def erase (g : Graph) (i : Nat) : Graph :=
  (g.removeInPlace i).2

theorem removeInPlace_of_get? {g : Graph} {i : Nat} {t : Triple} (h : g.get? i = some t) :
    g.removeInPlace i = (.ok t, g.erase i) := by
  have hlog : g.log.removeInPlace i = (.ok t, g.log.erase i) := by
    rw [Log.removeInPlace, show g.log.get? i = some t from h]
  rw [erase, removeInPlace, hlog]

theorem removeInPlace_of_absent {g : Graph} {i : Nat} (h : g.get? i = none) :
    g.removeInPlace i = (.error ⟨i⟩, g) := by
  have hlog : g.log.removeInPlace i = (.error ⟨i⟩, g.log) := by
    rw [Log.removeInPlace, show g.log.get? i = none from h, Log.erase_of_absent h]
  rw [removeInPlace, hlog]

theorem erase_of_get? {g : Graph} {i : Nat} {t : Triple} (h : g.get? i = some t) :
    g.erase i = ⟨g.log.erase i, g.index.erase t i⟩ := by
  rw [erase, removeInPlace, Log.removeInPlace, show g.log.get? i = some t from h]

theorem erase_of_absent {g : Graph} {i : Nat} (h : g.get? i = none) : g.erase i = g := by
  rw [erase, removeInPlace_of_absent h]

theorem get?_erase (g : Graph) (i j : Nat) :
    (g.erase i).get? j = if i = j then none else g.get? j := by
  cases h : g.get? i with
  | none =>
    rw [erase_of_absent h]
    by_cases hij : i = j
    · rw [if_pos hij, ← hij, h]
    · rw [if_neg hij]
  | some t =>
    rw [erase_of_get? h]
    exact Log.get?_erase g.log i j

theorem nextIndex_erase (g : Graph) (i : Nat) : (g.erase i).nextIndex = g.nextIndex := by
  cases h : g.get? i with
  | none => rw [erase_of_absent h]
  | some t =>
    rw [erase_of_get? h]
    exact Log.nextIndex_erase g.log i

theorem entries_erase (g : Graph) (i : Nat) :
    (g.erase i).entries = g.entries.filter (·.1 ≠ i) := by
  cases h : g.get? i with
  | none =>
    rw [erase_of_absent h, List.filter_eq_self.mpr]
    rintro ⟨j, t⟩ hmem
    have hj : j ≠ i := fun hij => by simp [hij ▸ mem_entries_iff.mp hmem] at h
    exact decide_eq_true hj
  | some t =>
    rw [erase_of_get? h]
    exact Log.entries_erase g.log i

/-- The graph without the triples under several indices. -/
def eraseEach (g : Graph) (indices : List Nat) : Graph :=
  indices.foldl erase g

theorem entries_eraseEach (g : Graph) (indices : List Nat) :
    (g.eraseEach indices).entries = g.entries.filter (·.1 ∉ indices) := by
  induction indices generalizing g with
  | nil => simp [eraseEach]
  | cons i rest ih =>
    show ((g.erase i).eraseEach rest).entries = _
    rw [ih, entries_erase, List.filter_filter]
    refine List.filter_congr fun e _ => ?_
    simp [not_or, Bool.and_comm]

theorem get?_eraseEach (g : Graph) (indices : List Nat) (i : Nat) :
    (g.eraseEach indices).get? i = if i ∈ indices then none else g.get? i := by
  induction indices generalizing g with
  | nil => rfl
  | cons j rest ih =>
    show ((g.erase j).eraseEach rest).get? i = _
    rw [ih, get?_erase]
    by_cases hrest : i ∈ rest
    · rw [if_pos hrest, if_pos (List.mem_cons_of_mem j hrest)]
    · by_cases hij : j = i
      · rw [if_neg hrest, if_pos hij, if_pos (hij ▸ List.mem_cons_self)]
      · rw [if_neg hrest, if_neg hij, if_neg (by simp [hrest, Ne.symm hij])]

theorem nextIndex_eraseEach (g : Graph) (indices : List Nat) :
    (g.eraseEach indices).nextIndex = g.nextIndex := by
  induction indices generalizing g with
  | nil => rfl
  | cons i rest ih =>
    show ((g.erase i).eraseEach rest).nextIndex = _
    rw [ih, nextIndex_erase]

theorem Bounded.eraseEach {g : Graph} (h : g.Bounded) (indices : List Nat) :
    (g.eraseEach indices).Bounded := by
  intro i t ht
  replace ht : (g.eraseEach indices).get? i = some t := ht
  show i < (g.eraseEach indices).nextIndex
  rw [get?_eraseEach] at ht
  rw [nextIndex_eraseEach]
  split at ht
  · cases ht
  · exact h i t ht

/-! ### Several removals -/

/-- Each of the indices is that of a triple, and none is listed twice. -/
structure Removable (g : Graph) (indices : List Nat) : Prop where
  distinct : indices.Nodup
  live : ∀ i ∈ indices, (g.get? i).isSome

/-- No removal takes the triple of another index away. -/
theorem Removable.erase {g : Graph} {i : Nat} {rest : List Nat} (h : g.Removable (i :: rest)) :
    (g.erase i).Removable rest ∧ ∀ j ∈ rest, (g.erase i).get? j = g.get? j := by
  obtain ⟨hi, hdistinct⟩ := List.nodup_cons.mp h.distinct
  have hget : ∀ j ∈ rest, (g.erase i).get? j = g.get? j := by
    intro j hj
    have hij : i ≠ j := fun h => hi (h ▸ hj)
    rw [get?_erase, if_neg hij]
  have hlive : ∀ j ∈ rest, ((g.erase i).get? j).isSome := by
    intro j hj
    rw [hget j hj]
    exact h.live j (List.mem_cons_of_mem i hj)
  exact ⟨⟨hdistinct, hlive⟩, hget⟩

/-- What can be removed is removed, one triple after the other. -/
theorem Removable.removeEachInPlace_eq {g : Graph} {indices : List Nat} (h : g.Removable indices) :
    g.removeEachInPlace indices = (.ok (indices.filterMap g.get?), g.eraseEach indices) := by
  induction indices generalizing g with
  | nil => rfl
  | cons i rest ih =>
    obtain ⟨t, ht⟩ := Option.isSome_iff_exists.mp (h.live i List.mem_cons_self)
    obtain ⟨hrest, hget⟩ := h.erase
    rw [removeEachInPlace, removeInPlace_of_get? ht]
    simp only [ih hrest]
    rw [List.filterMap_congr hget, List.filterMap_cons_some ht]
    rfl

theorem Removable.removeEach_eq {g : Graph} {indices : List Nat} (h : g.Removable indices) :
    g.removeEach indices = .ok (indices.filterMap g.get?, g.eraseEach indices) :=
  Change.settled_eq_ok_iff.mpr h.removeEachInPlace_eq

theorem firstAbsent?_eq_none_iff {g : Graph} {before indices : List Nat} :
    g.firstAbsent? before indices = none ↔
      indices.Nodup ∧ ∀ i ∈ indices, (g.get? i).isSome ∧ i ∉ before := by
  induction indices generalizing before with
  | nil => simp [firstAbsent?]
  | cons i rest ih =>
    rw [firstAbsent?]
    split
    · next h =>
      simp only [reduceCtorEq, false_iff, not_and]
      intro _ hall
      obtain ⟨hlive, hbefore⟩ := hall i List.mem_cons_self
      simp [Option.isNone_iff_eq_none, Option.isSome_iff_ne_none.mp hlive, hbefore] at h
    · next h =>
      rw [ih, List.nodup_cons]
      simp only [Bool.or_eq_true, Option.isNone_iff_eq_none, decide_eq_true_eq, not_or] at h
      constructor
      · rintro ⟨hnd, hall⟩
        have hi : i ∉ rest := fun hmem => (hall i hmem).2 List.mem_cons_self
        refine ⟨⟨hi, hnd⟩, fun j hj => ?_⟩
        rcases List.mem_cons.mp hj with rfl | hj
        · exact ⟨Option.isSome_iff_ne_none.mpr h.1, h.2⟩
        · exact ⟨(hall j hj).1, fun hb => (hall j hj).2 (List.mem_cons_of_mem i hb)⟩
      · rintro ⟨⟨hi, hnd⟩, hall⟩
        refine ⟨hnd, fun j hj => ⟨(hall j (List.mem_cons_of_mem i hj)).1, fun hb => ?_⟩⟩
        rcases List.mem_cons.mp hb with rfl | hb
        · exact hi hj
        · exact (hall j (List.mem_cons_of_mem i hj)).2 hb

/-- `removeAll` looks for what makes indices not removable. -/
theorem removable_iff {g : Graph} {indices : List Nat} :
    g.Removable indices ↔ g.firstAbsent? [] indices = none := by
  rw [firstAbsent?_eq_none_iff]
  exact ⟨fun h => ⟨h.distinct, fun i hi => ⟨h.live i hi, List.not_mem_nil⟩⟩,
    fun h => ⟨h.1, fun i hi => (h.2 i hi).1⟩⟩

theorem mem_sortedIndices {indices : List Nat} {i : Nat} :
    i ∈ sortedIndices indices ↔ i ∈ indices := by
  simp [sortedIndices, Std.ExtTreeSet.mem_toList, Std.ExtTreeSet.mem_ofList]

theorem sortedIndices_ascending (indices : List Nat) :
    (sortedIndices indices).Pairwise (· < ·) :=
  IndexSet.toList_ascending _

theorem Removable.sorted {g : Graph} {indices : List Nat} (h : g.Removable indices) :
    g.Removable (sortedIndices indices) where
  distinct := (sortedIndices_ascending indices).imp Nat.ne_of_lt
  live i hi := h.live i (mem_sortedIndices.mp hi)

/-- Indices that can be removed are, whatever their order is. -/
theorem Removable.removeAllInPlace_eq {g : Graph} {indices : List Nat} (h : g.Removable indices) :
    g.removeAllInPlace indices =
      (.ok ((sortedIndices indices).filterMap g.get?), g.eraseEach (sortedIndices indices)) := by
  rw [removeAllInPlace, removable_iff.mp h]
  exact h.sorted.removeEachInPlace_eq

/-- What is refused is refused before anything is removed. -/
theorem removeAllInPlace_of_absent {g : Graph} {indices : List Nat} {i : Nat}
    (h : g.firstAbsent? [] indices = some i) : g.removeAllInPlace indices = (.error ⟨i⟩, g) := by
  rw [removeAllInPlace, h]

end Graph

end ContextPolicy
