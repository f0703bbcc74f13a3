import ContextPolicy.Proofs.Graph.Indexed

/-! Removals of several triples at once.

`removeAllInPlace` looks all of the indices up before it removes the first triple. If one of them
cannot be removed it names the first of these (`refuses_of_firstAbsent?`). Otherwise no removal
of an index takes the triple of another one away, so each of them goes through, and in
whatever order they are carried out, the same graph is left (`Indexed.eraseEach_congr`).

A removal that is refused half-way would leave a graph without the triples that are gone already,
as `removeEachInPlace` does. `removeAll_atomic` says that this does not happen. -/
namespace ContextPolicy.Graph

variable {g : Graph} {indices order : List Nat} {i : Nat}

/-! ### What can be removed -/

/-- The index is not that of a triple or was listed before, and it is the first such index. -/
def Refuses (g : Graph) (indices : List Nat) (i : Nat) : Prop :=
  ∃ before after, indices = before ++ i :: after ∧ g.Removable before ∧
    (g.get? i = none ∨ i ∈ before)

theorem Removable.perm (h : g.Removable indices) (hperm : order.Perm indices) :
    g.Removable order :=
  ⟨hperm.nodup_iff.mpr h.distinct, fun i hi => h.live i (hperm.mem_iff.mp hi)⟩

/-- The search, where some indices were met already. -/
theorem split_of_firstAbsent? {met : List Nat} (h : g.firstAbsent? met indices = some i) :
    ∃ before after, indices = before ++ i :: after ∧ g.Removable before ∧
      (∀ j ∈ before, j ∉ met) ∧ (g.get? i = none ∨ i ∈ met ∨ i ∈ before) := by
  induction indices generalizing met with
  | nil => cases h
  | cons k rest ih =>
    rw [Graph.firstAbsent?] at h
    split at h
    · next hk =>
      obtain rfl := Option.some.inj h
      refine ⟨[], rest, rfl, ⟨List.nodup_nil, fun _ hj => absurd hj List.not_mem_nil⟩,
        fun _ hj => absurd hj List.not_mem_nil, ?_⟩
      rw [Bool.or_eq_true, Option.isNone_iff_eq_none, decide_eq_true_eq] at hk
      exact hk.imp_right .inl
    · next hk =>
      obtain ⟨before, after, rfl, hbefore, hmet, hi⟩ := ih h
      rw [Bool.or_eq_true, Option.isNone_iff_eq_none, decide_eq_true_eq, not_or] at hk
      have hnew : k ∉ before := fun hmem => hmet k hmem List.mem_cons_self
      refine ⟨k :: before, after, rfl, ⟨List.nodup_cons.mpr ⟨hnew, hbefore.distinct⟩, ?_⟩, ?_, ?_⟩
      · exact List.forall_mem_cons.mpr ⟨Option.isSome_iff_ne_none.mpr hk.1, hbefore.live⟩
      · exact List.forall_mem_cons.mpr
          ⟨hk.2, fun j hj hmem => hmet j hj (List.mem_cons_of_mem k hmem)⟩
      · rcases hi with hnone | hmem | hmem
        · exact .inl hnone
        · rcases List.mem_cons.mp hmem with rfl | hmem
          · exact .inr (.inr List.mem_cons_self)
          · exact .inr (.inl hmem)
        · exact .inr (.inr (List.mem_cons_of_mem k hmem))

theorem refuses_of_firstAbsent? (h : g.firstAbsent? [] indices = some i) :
    g.Refuses indices i := by
  obtain ⟨before, after, hsplit, hbefore, -, hi⟩ := split_of_firstAbsent? h
  exact ⟨before, after, hsplit, hbefore, hi.imp_right fun hmem =>
    hmem.resolve_left List.not_mem_nil⟩

/-! ### What is handed back -/

theorem sortedIndices_eq_of_perm (hperm : order.Perm indices) :
    sortedIndices order = sortedIndices indices := by
  refine (sortedIndices_ascending order).eq_of_mem_iff (sortedIndices_ascending indices) fun i => ?_
  rw [mem_sortedIndices, mem_sortedIndices, hperm.mem_iff]

/-- The triples under indices that can be removed, in the order of the entries. -/
theorem Removable.filterMap_get? (h : g.Removable indices) :
    (sortedIndices indices).filterMap g.get? =
      (g.entries.filter (·.1 ∈ indices)).map (·.2) := by
  have hascending : ((g.entries.filter (·.1 ∈ indices)).map (·.1)).Pairwise (· < ·) :=
    List.pairwise_map.mpr (g.log.entries_ascending.filter _)
  have hindices : sortedIndices indices = (g.entries.filter (·.1 ∈ indices)).map (·.1) := by
    refine (sortedIndices_ascending indices).eq_of_mem_iff hascending fun i => ?_
    simp only [mem_sortedIndices, List.mem_map, List.mem_filter, decide_eq_true_eq]
    constructor
    · intro hi
      obtain ⟨t, ht⟩ := Option.isSome_iff_exists.mp (h.live i hi)
      exact ⟨(i, t), ⟨mem_entries_iff.mpr ht, hi⟩, rfl⟩
    · rintro ⟨e, ⟨-, hi⟩, rfl⟩
      exact hi
  have hget : ∀ e ∈ g.entries.filter (·.1 ∈ indices), (g.get? ∘ (·.1)) e = (some ∘ (·.2)) e :=
    fun e he => mem_entries_iff.mp (List.mem_filter.mp he).1
  rw [hindices, List.filterMap_map, List.filterMap_congr hget, List.filterMap_eq_map]

/-! ### All or nothing -/

/-- If each index is that of a triple and none is listed twice, the triples are handed back in
ascending order of their indices, and what is left is the graph without them, the same that
removals one after the other leave in any order. Otherwise the first index that does not fit is
named, and the graph is left as it was. What passes the check is removed without a fault. -/
theorem removeAll_atomic (ops : List Operation) (indices : List Nat) :
    let g := run ∅ ops
    let ts := (g.entries.filter (·.1 ∈ indices)).map (·.2)
    (g.Removable indices → ∃ h,
      g.removeAll indices = .ok (ts, h) ∧ g.removeAllInPlace indices = (.ok ts, h) ∧
      h.entries = g.entries.filter (·.1 ∉ indices) ∧ h.nextIndex = g.nextIndex ∧
      ∀ order : List Nat, order.Perm indices → g.removeAll order = .ok (ts, h) ∧
        g.removeEach order = .ok (order.filterMap g.get?, h)) ∧
    (¬g.Removable indices → ∃ i, g.Refuses indices i ∧
      g.removeAll indices = .error ⟨i⟩ ∧ g.removeAllInPlace indices = (.error ⟨i⟩, g)) ∧
    (g.firstAbsent? [] indices = none →
      ∃ h, g.removeEach (sortedIndices indices) = .ok (ts, h)) := by
  intro g ts
  have hg : g.Indexed := indexed_run ops
  have hall : ∀ {order}, order.Perm indices → g.Removable indices →
      g.removeAllInPlace order = (.ok ts, g.eraseEach indices) := by
    intro order hperm hremovable
    have horder : g.Removable order := hremovable.perm hperm
    have hmem : ∀ i, i ∈ sortedIndices order ↔ i ∈ indices :=
      fun i => mem_sortedIndices.trans hperm.mem_iff
    rw [horder.removeAllInPlace_eq, hg.eraseEach_congr hmem, sortedIndices_eq_of_perm hperm,
      hremovable.filterMap_get?]
  refine ⟨fun hremovable => ?_, fun hrefused => ?_, fun hcheck => ?_⟩
  · have hok := hall (.refl indices) hremovable
    refine ⟨g.eraseEach indices, Change.settled_eq_ok_iff.mpr hok, hok, entries_eraseEach g indices,
      nextIndex_eraseEach g indices, fun order hperm =>
        ⟨Change.settled_eq_ok_iff.mpr (hall hperm hremovable), ?_⟩⟩
    rw [(hremovable.perm hperm).removeEach_eq, hg.eraseEach_congr fun i => hperm.mem_iff]
  · cases hcheck : g.firstAbsent? [] indices with
    | none => exact absurd (removable_iff.mpr hcheck) hrefused
    | some i =>
      have herror := removeAllInPlace_of_absent hcheck
      refine ⟨i, refuses_of_firstAbsent? hcheck, ?_, herror⟩
      exact Change.settled_eq_error_iff.mpr (congrArg Prod.fst herror)
  · have hok := hall (.refl indices) (removable_iff.mpr hcheck)
    rw [removeAllInPlace, hcheck] at hok
    exact ⟨_, Change.settled_eq_ok_iff.mpr hok⟩

/-- The same triple three times, one of them gone: two that are left are removed in either order,
and an index that comes again is refused when it does. -/
theorem removeAll_atomic_repeated :
    let t : Triple := ⟨.named "a", "a", .named "a"⟩
    let ops : List Operation := [.ofTriples [t, ⟨.named "a", "b", .blank "c"⟩, t, t], .remove 0]
    let g := run ∅ ops
    g.Removable [3, 1] ∧ g.removeAll [1, 3] = g.removeAll [3, 1] ∧ ¬g.Removable [3, 1, 3] ∧
      ∃ i, g.Refuses [3, 1, 3] i ∧ g.removeAllInPlace [3, 1, 3] = (.error ⟨i⟩, g) := by
  intro t ops g
  have hremovable : g.Removable [3, 1] := ⟨by decide, by decide +kernel⟩
  have hrefused : ¬g.Removable [3, 1, 3] := fun h => absurd h.distinct (by decide)
  obtain ⟨hok, -, -⟩ := removeAll_atomic ops [3, 1]
  obtain ⟨h, hremoved, -, -, -, horder⟩ := hok hremovable
  obtain ⟨-, herror, -⟩ := removeAll_atomic ops [3, 1, 3]
  obtain ⟨i, hi, -, hplace⟩ := herror hrefused
  have hswapped := (horder [1, 3] (.swap 3 1 [])).1
  exact ⟨hremovable, hswapped.trans hremoved.symm, hrefused, i, hi, hplace⟩

end ContextPolicy.Graph
