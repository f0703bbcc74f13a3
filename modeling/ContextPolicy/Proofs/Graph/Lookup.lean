import ContextPolicy.Proofs.Graph.Indexed

/-! Lookups against the scan of all entries.

A lookup never sees the triples: it walks one set of indices and probes the others. The
first section says what that gives in terms of the postings alone (`mem_find_iff`). The
second puts the agreement of index and log behind it: an index that is found is that of a
triple with every term asked for, and no other, so a lookup is the scan that keeps the
entries the pattern accepts (`Indexed.find_eq`, `Indexed.findEntries_eq`). The check of one
view against the other is a scan too: it compares indices and looks every entry up
(`isConsistent_iff`), and passes (`Indexed.isConsistent`). -/
namespace ContextPolicy

theorem Position.mem_all (pos : Position) : pos ∈ all := by
  cases pos <;> decide

theorem Pattern.accepts_iff {p : Pattern} {t : Triple} :
    p.accepts t = true ↔ ∀ pos x, p.term pos = some x → t.term pos = x := by
  rw [accepts, List.all_eq_true]
  constructor
  · intro h pos x hx
    have hpos := h pos (Position.mem_all pos)
    rw [hx, Option.all_some, beq_iff_eq] at hpos
    exact hpos.symm
  · intro h pos _
    cases hx : p.term pos with
    | none => rfl
    | some x =>
      rw [Option.all_some, beq_iff_eq]
      exact (h pos x hx).symm

/-! ### In terms of postings -/

namespace PatternIndex

theorem mem_foldl_union {entries : List (Term × IndexSet)} {start : IndexSet} {i : Nat} :
    i ∈ entries.foldl (fun found entry => found.union entry.2) start ↔
      i ∈ start ∨ ∃ entry ∈ entries, i ∈ entry.2 := by
  induction entries generalizing start with
  | nil => simp
  | cons entry rest ih =>
    rw [List.foldl_cons, ih, Std.ExtTreeSet.union_eq, Std.ExtTreeSet.mem_union_iff]
    simp only [List.exists_mem_cons_iff, or_assoc]

theorem mem_all_iff {x : PatternIndex} {i : Nat} :
    i ∈ x.all ↔ ∃ s, i ∈ x.subjects.indices s := by
  rw [all, Std.ExtTreeSet.mem_toList, mem_foldl_union]
  constructor
  · rintro (h | ⟨⟨s, set⟩, hmem, hi⟩)
    · simp at h
    · refine ⟨s, ?_⟩
      rw [Postings.indices, Std.ExtTreeMap.mem_toList_iff_getElem?_eq_some.mp hmem]
      exact hi
  · rintro ⟨s, hi⟩
    rw [Postings.indices] at hi
    cases hs : x.subjects[s]? with
    | none => simp [hs] at hi
    | some set =>
      rw [hs] at hi
      exact .inr ⟨(s, set), Std.ExtTreeMap.mem_toList_iff_getElem?_eq_some.mpr hs, hi⟩

/-- The set that a lookup walks is one of those it was given. -/
theorem foldl_smaller_mem (first : IndexSet) (others : List IndexSet) :
    others.foldl smaller first ∈ first :: others := by
  induction others generalizing first with
  | nil => exact List.mem_cons_self
  | cons second rest ih =>
    rw [List.foldl_cons]
    have hstep : smaller first second = first ∨ smaller first second = second := by
      unfold smaller
      split
      · exact .inr rfl
      · exact .inl rfl
    rcases List.mem_cons.mp (ih (smaller first second)) with h | h
    · rw [h]
      rcases hstep with h' | h' <;> simp [h']
    · exact List.mem_cons_of_mem _ (List.mem_cons_of_mem _ h)

theorem mem_intersect_iff {first : IndexSet} {others : List IndexSet} {i : Nat} :
    i ∈ intersect (first :: others) ↔ ∀ set ∈ first :: others, i ∈ set := by
  rw [intersect, List.mem_filter, Std.ExtTreeSet.mem_toList, List.all_eq_true]
  simp only [Std.ExtTreeSet.contains_iff_mem]
  exact ⟨fun h => h.2, fun h => ⟨h _ (foldl_smaller_mem first others), h⟩⟩

theorem mem_lookups_iff {x : PatternIndex} {p : Pattern} {o : Option IndexSet} :
    o ∈ x.lookups p ↔ ∃ pos y, p.term pos = some y ∧ (x.postings pos)[y]? = o := by
  simp only [lookups, List.mem_filterMap, Option.map_eq_some_iff]
  constructor
  · rintro ⟨pos, -, y, h⟩
    exact ⟨pos, y, h⟩
  · rintro ⟨pos, y, h⟩
    exact ⟨pos, Position.mem_all pos, y, h⟩

theorem mapM_id_eq_none {α : Type} {xs : List (Option α)} (h : xs.mapM id = none) :
    none ∈ xs := by
  induction xs with
  | nil => simp at h
  | cons o rest ih =>
    cases o with
    | none => exact List.mem_cons_self
    | some a =>
      cases hrest : rest.mapM id with
      | none => exact List.mem_cons_of_mem _ (ih hrest)
      | some ys => simp [List.mapM_cons, hrest] at h

theorem mapM_id_eq_some {α : Type} {xs : List (Option α)} {ys : List α}
    (h : xs.mapM id = some ys) : xs = ys.map some := by
  induction xs generalizing ys with
  | nil => simp_all
  | cons o rest ih =>
    cases o with
    | none => simp [List.mapM_cons] at h
    | some a =>
      cases hrest : rest.mapM id with
      | none => simp [List.mapM_cons, hrest] at h
      | some zs =>
        simp only [List.mapM_cons, id_eq, hrest, Option.bind_eq_bind, Option.bind_some,
          Option.pure_def, Option.some.injEq] at h
        rw [← h, ih hrest, List.map_cons]

/-- What a lookup finds is posted for every term asked for, and where none is, anywhere. -/
theorem mem_find_iff {x : PatternIndex} {p : Pattern} {i : Nat} :
    i ∈ x.find p ↔ (∀ pos y, p.term pos = some y → i ∈ (x.postings pos).indices y) ∧
      ((∀ pos, p.term pos = none) → i ∈ x.all) := by
  rw [find]
  cases hm : (x.lookups p).mapM id with
  | none =>
    obtain ⟨pos, y, hy, hnone⟩ := mem_lookups_iff.mp (mapM_id_eq_none hm)
    refine ⟨fun h => absurd h List.not_mem_nil, fun h => ?_⟩
    have hi := h.1 pos y hy
    rw [Postings.indices, hnone] at hi
    simp at hi
  | some sets =>
    have hsets := mapM_id_eq_some hm
    have hbound : ∀ pos y, p.term pos = some y →
        ∃ set ∈ sets, (x.postings pos)[y]? = some set := by
      intro pos y hy
      have hmem : (x.postings pos)[y]? ∈ x.lookups p := mem_lookups_iff.mpr ⟨pos, y, hy, rfl⟩
      rw [hsets] at hmem
      obtain ⟨set, hset, heq⟩ := List.mem_map.mp hmem
      exact ⟨set, hset, heq.symm⟩
    cases sets with
    | nil =>
      have hfree : ∀ pos, p.term pos = none := by
        intro pos
        cases hy : p.term pos with
        | none => rfl
        | some y =>
          obtain ⟨set, hset, -⟩ := hbound pos y hy
          cases hset
      exact ⟨fun h => ⟨fun pos y hy => by simp [hfree pos] at hy, fun _ => h⟩, fun h => h.2 hfree⟩
    | cons first others =>
      show i ∈ intersect (first :: others) ↔ _
      rw [mem_intersect_iff]
      constructor
      · intro h
        refine ⟨fun pos y hy => ?_, fun hfree => ?_⟩
        · obtain ⟨set, hset, heq⟩ := hbound pos y hy
          rw [Postings.indices, heq]
          exact h set hset
        · have hmem : some first ∈ x.lookups p := by rw [hsets]; exact List.mem_cons_self
          obtain ⟨pos, y, hy, -⟩ := mem_lookups_iff.mp hmem
          simp [hfree pos] at hy
      · rintro ⟨h, -⟩ set hset
        have hmem : some set ∈ x.lookups p := by
          rw [hsets]
          exact List.mem_map_of_mem hset
        obtain ⟨pos, y, hy, heq⟩ := mem_lookups_iff.mp hmem
        have hi := h pos y hy
        rw [Postings.indices, heq] at hi
        exact hi

theorem find_ascending (x : PatternIndex) (p : Pattern) : (x.find p).Pairwise (· < ·) := by
  rw [find]
  split
  · exact .nil
  · exact IndexSet.toList_ascending _
  · next sets _ _ =>
    cases sets with
    | nil => exact .nil
    | cons first others => exact (IndexSet.toList_ascending _).filter _

end PatternIndex

/-! ### In terms of entries -/

namespace Graph

variable {g : Graph}

theorem Indexed.mem_find_iff (h : g.Indexed) {p : Pattern} {i : Nat} :
    i ∈ g.index.find p ↔ ∃ t, g.get? i = some t ∧ p.accepts t = true := by
  rw [PatternIndex.mem_find_iff]
  constructor
  · rintro ⟨hbound, hfree⟩
    have hlive : ∃ t, g.get? i = some t := by
      by_cases hany : ∀ pos, p.term pos = none
      · obtain ⟨s, hs⟩ := PatternIndex.mem_all_iff.mp (hfree hany)
        obtain ⟨t, ht, -⟩ := (h.posted .subject s i).mp hs
        exact ⟨t, ht⟩
      · obtain ⟨pos, hpos⟩ := not_forall.mp hany
        obtain ⟨y, hy⟩ := Option.ne_none_iff_exists'.mp hpos
        obtain ⟨t, ht, -⟩ := (h.posted pos y i).mp (hbound pos y hy)
        exact ⟨t, ht⟩
    obtain ⟨t, ht⟩ := hlive
    refine ⟨t, ht, Pattern.accepts_iff.mpr fun pos y hy => ?_⟩
    obtain ⟨u, hu, hterm⟩ := (h.posted pos y i).mp (hbound pos y hy)
    rw [ht, Option.some.injEq] at hu
    rw [hu, hterm]
  · rintro ⟨t, ht, hacc⟩
    refine ⟨fun pos y hy => ?_, fun _ => ?_⟩
    · exact (h.posted pos y i).mpr ⟨t, ht, Pattern.accepts_iff.mp hacc pos y hy⟩
    · exact PatternIndex.mem_all_iff.mpr ⟨_, (h.posted .subject _ i).mpr ⟨t, ht, rfl⟩⟩

theorem Indexed.find_eq (h : g.Indexed) (p : Pattern) :
    g.index.find p = (g.entries.filter (p.accepts ·.2)).map (·.1) := by
  have hasc : ((g.entries.filter (p.accepts ·.2)).map (·.1)).Pairwise (· < ·) :=
    List.pairwise_map.mpr (g.log.entries_ascending.filter _)
  refine (g.index.find_ascending p).eq_of_mem_iff hasc fun i => ?_
  rw [h.mem_find_iff, List.mem_map]
  constructor
  · rintro ⟨t, ht, hacc⟩
    exact ⟨(i, t), List.mem_filter.mpr ⟨mem_entries_iff.mpr ht, hacc⟩, rfl⟩
  · rintro ⟨⟨j, t⟩, hmem, rfl⟩
    obtain ⟨hmem, hacc⟩ := List.mem_filter.mp hmem
    exact ⟨t, mem_entries_iff.mp hmem, hacc⟩

theorem Indexed.findEntries_eq (h : g.Indexed) (p : Pattern) :
    g.findEntries p = g.entries.filter (p.accepts ·.2) := by
  rw [findEntries, h.find_eq, List.filterMap_map]
  have hself : ∀ e ∈ g.entries.filter (p.accepts ·.2),
      ((fun i => (g.get? i).map (i, ·)) ∘ (·.1)) e = some e := by
    rintro ⟨i, t⟩ hmem
    have ht := mem_entries_iff.mp (List.mem_filter.mp hmem).1
    show (g.get? i).map (i, ·) = _
    rw [ht, Option.map_some]
  rw [List.filterMap_congr hself, List.filterMap_some]

theorem Indexed.find_triples (h : g.Indexed) (p : Pattern) :
    g.find p = g.triples.filter p.accepts := by
  rw [find, h.findEntries_eq, triples, Log.triples, List.filter_map]
  rfl

/-- A lookup for all the terms of a triple is a test for it. -/
theorem Indexed.find_eq_nil_iff (h : g.Indexed) {t : Triple} :
    g.find ⟨some t.subject, some (.named t.predicate), some t.object⟩ = [] ↔ t ∉ g.triples := by
  rw [h.find_triples, List.filter_eq_nil_iff]
  constructor
  · intro hnone ht
    refine hnone t ht (Pattern.accepts_iff.mpr fun pos x hx => ?_)
    cases pos <;> cases hx <;> rfl
  · intro ht u hu hacc
    have hterm := Pattern.accepts_iff.mp hacc
    have hpredicate := Term.named.inj (hterm .predicate _ rfl)
    have heq : u = t := by
      cases u
      cases t
      exact congr (congr (congrArg Triple.mk (hterm .subject _ rfl)) hpredicate)
        (hterm .object _ rfl)
    exact ht (heq ▸ hu)

theorem Indexed.find_ne_nil (h : g.Indexed) {t : Triple} (ht : t ∈ g.triples) :
    g.find ⟨some t.subject, some (.named t.predicate), some t.object⟩ ≠ [] :=
  fun hnone => h.find_eq_nil_iff.mp hnone ht

/-- The first of the entries that a scan for a subject and a predicate keeps. -/
theorem Indexed.firstObject_eq (h : g.Indexed) (x : Term) (q : String) :
    g.firstObject x q =
      (g.entries.find? fun e => e.2.subject == x && e.2.predicate == q).map (·.2.object) := by
  have hacc : ∀ e ∈ g.entries, Pattern.accepts ⟨some x, some (.named q), none⟩ e.2 =
      (e.2.subject == x && e.2.predicate == q) := by
    intro e _
    rw [Bool.eq_iff_iff, Pattern.accepts_iff]
    simp only [Bool.and_eq_true, beq_iff_eq]
    constructor
    · intro hall
      exact ⟨hall .subject x rfl, Term.named.inj (hall .predicate _ rfl)⟩
    · rintro ⟨rfl, rfl⟩ pos y hy
      cases pos <;> cases hy <;> rfl
  rw [firstObject, h.find_eq, List.filter_congr hacc, List.head?_map, List.head?_filter]
  cases hfind : g.entries.find? fun e => e.2.subject == x && e.2.predicate == q with
  | none => rfl
  | some e =>
    have he := mem_entries_iff.mp (List.mem_of_find?_eq_some hfind)
    show (g.get? e.1).map _ = _
    rw [he]
    rfl

/-! ### The check -/

/-- What is stored is posted, and no index is posted for a subject without being stored. -/
structure Covered (g : Graph) : Prop where
  live : ∀ i, (∃ x, i ∈ g.index.subjects.indices x) ↔ ∃ t, g.get? i = some t
  posted : ∀ i t, g.get? i = some t → ∀ pos, i ∈ (g.index.postings pos).indices (t.term pos)

theorem contains_iff {x : PatternIndex} {t : Triple} {i : Nat} :
    x.contains t i = true ↔ ∀ pos, i ∈ (x.postings pos).indices (t.term pos) := by
  rw [PatternIndex.contains, List.all_eq_true]
  simp only [Std.ExtTreeSet.contains_iff_mem]
  exact ⟨fun h pos => h pos pos.mem_all, fun h pos _ => h pos⟩

/-- The entries go along with a list of indices if these are their own. -/
theorem zip_check_iff (es : List (Nat × Triple)) (indices : List Nat)
    (p : Nat → Triple → Bool) :
    (indices.length == es.length &&
        (es.zip indices).all fun ((i, t), j) => i == j && p i t) = true ↔
      es.map (·.1) = indices ∧ ∀ e ∈ es, p e.1 e.2 = true := by
  induction es generalizing indices with
  | nil => cases indices <;> simp
  | cons e rest ih =>
    cases indices with
    | nil => simp
    | cons j indices =>
      have hrest := ih indices
      simp only [Bool.and_eq_true, beq_iff_eq] at hrest
      simp only [List.length_cons, List.zip_cons_cons, List.all_cons, Bool.and_eq_true, beq_iff_eq,
        Nat.add_right_cancel_iff, List.map_cons, List.cons.injEq, List.forall_mem_cons]
      tauto

theorem mem_find_any_iff {x : PatternIndex} {i : Nat} :
    i ∈ x.find .any ↔ ∃ s, i ∈ x.subjects.indices s := by
  have hfree : ∀ pos, Pattern.any.term pos = none := fun pos => by cases pos <;> rfl
  rw [PatternIndex.mem_find_iff, ← PatternIndex.mem_all_iff]
  constructor
  · exact fun h => h.2 hfree
  · exact fun h => ⟨fun pos y hy => by simp [hfree pos] at hy, fun _ => h⟩

/-- The check says exactly that what is stored is covered by the index. -/
theorem isConsistent_iff : g.isConsistent = true ↔ g.Covered := by
  have hascending : (g.entries.map (·.1)).Pairwise (· < ·) :=
    List.pairwise_map.mpr g.log.entries_ascending
  have hmem : ∀ i, i ∈ g.entries.map (·.1) ↔ ∃ t, g.get? i = some t := by
    intro i
    rw [List.mem_map]
    constructor
    · rintro ⟨⟨j, t⟩, hj, rfl⟩
      exact ⟨t, mem_entries_iff.mp hj⟩
    · rintro ⟨t, ht⟩
      exact ⟨(i, t), mem_entries_iff.mpr ht, rfl⟩
  have hsize : g.size = g.entries.length := by
    rw [size_eq]
    exact List.length_map _
  rw [Graph.isConsistent, hsize]
  refine (zip_check_iff g.entries _ fun i t => g.index.contains t i).trans ?_
  constructor
  · rintro ⟨hindices, hcontains⟩
    refine ⟨fun i => ?_, fun i t ht => contains_iff.mp (hcontains _ (mem_entries_iff.mpr ht))⟩
    rw [← mem_find_any_iff, ← hindices, hmem]
  · rintro ⟨hlive, hposted⟩
    refine ⟨?_, fun ⟨i, t⟩ ht => contains_iff.mpr (hposted i t (mem_entries_iff.mp ht))⟩
    refine hascending.eq_of_mem_iff (g.index.find_ascending .any) fun i => ?_
    rw [hmem, mem_find_any_iff, hlive]

/-- What is posted is what is stored, for any log and any index. -/
def ViewsAgree (g : Graph) : Prop :=
  ∀ pos x i, i ∈ (g.index.postings pos).indices x ↔ ∃ t, g.get? i = some t ∧ t.term pos = x

theorem ViewsAgree.covered (h : g.ViewsAgree) : g.Covered where
  live i := by
    constructor
    · rintro ⟨x, hx⟩
      obtain ⟨t, ht, -⟩ := (h .subject x i).mp hx
      exact ⟨t, ht⟩
    · rintro ⟨t, ht⟩
      exact ⟨t.subject, (h .subject t.subject i).mpr ⟨t, ht, rfl⟩⟩
  posted i t ht pos := (h pos (t.term pos) i).mpr ⟨t, ht, rfl⟩

/-- The two views of a graph pass the check. -/
theorem Indexed.isConsistent (h : g.Indexed) : g.isConsistent = true :=
  isConsistent_iff.mpr (ViewsAgree.covered h.posted)

/-! ### After every run -/

/-- Whatever was done to a graph, refused or not, its index posts what its log holds, has no
empty set, and is the only one for the log; and no index is as large as the next one. -/
theorem views_agree (ops : List Operation) :
    (∀ pos x i, i ∈ ((run ∅ ops).index.postings pos).indices x ↔
      ∃ t, (run ∅ ops).get? i = some t ∧ t.term pos = x) ∧
    (∀ (pos : Position) (x : Term) (set : IndexSet),
      ((run ∅ ops).index.postings pos)[x]? = some set → set ≠ ∅) ∧
    (∀ i t, (run ∅ ops).get? i = some t → i < (run ∅ ops).nextIndex) ∧
    (run ∅ ops).isConsistent = true ∧
    ∀ others, (run ∅ others).log = (run ∅ ops).log → run ∅ others = run ∅ ops := by
  have h := indexed_run ops
  refine ⟨h.posted, h.tight, h.bounded, h.isConsistent, ?_⟩
  intro others hlog
  have hindex : (run ∅ others).index = (run ∅ ops).index := by
    refine (indexed_run others).index_eq h fun i => ?_
    rw [get?, get?, hlog]
  cases hg : run ∅ others
  cases hh : run ∅ ops
  simp_all

/-- Duplicates, a term in all positions of a triple, and a refused removal among the operations. -/
theorem views_agree_repeated :
    let t : Triple := ⟨.named "a", "a", .named "a"⟩
    let ops := [.add t, .add t, .removeAll [0, 0], .remove 0]
    (run ∅ [.add t, .add t, .remove 0]).log = (run ∅ ops).log ∧
      run ∅ [.add t, .add t, .remove 0] = run ∅ ops := by
  intro t ops
  have hlog : (run ∅ [.add t, .add t, .remove 0]).log = (run ∅ ops).log := by decide
  exact ⟨hlog, (views_agree ops).2.2.2.2 _ hlog⟩

/-- A lookup gives what the scan of all entries keeps, in their order. -/
theorem lookup_agrees_with_scan (ops : List Operation) (p : Pattern) :
    (run ∅ ops).findEntries p = (run ∅ ops).entries.filter (p.accepts ·.2) ∧
    (∀ i t, (i, t) ∈ (run ∅ ops).findEntries p ↔
      (run ∅ ops).get? i = some t ∧ ∀ pos x, p.term pos = some x → t.term pos = x) ∧
    ((run ∅ ops).findEntries p).Pairwise (·.1 < ·.1) ∧
    (run ∅ ops).find p = ((run ∅ ops).entries.filter (p.accepts ·.2)).map (·.2) ∧
    ∀ x q, (run ∅ ops).firstObject x q =
      ((run ∅ ops).entries.find? fun e => e.2.subject == x && e.2.predicate == q).map
        (·.2.object) := by
  have h := indexed_run ops
  have hentries := h.findEntries_eq p
  refine ⟨hentries, fun i t => ?_, ?_, ?_, h.firstObject_eq⟩
  · rw [hentries, List.mem_filter, mem_entries_iff, Pattern.accepts_iff]
  · rw [hentries]
    exact (run ∅ ops).log.entries_ascending.filter _
  · rw [find, hentries]

end Graph

end ContextPolicy
