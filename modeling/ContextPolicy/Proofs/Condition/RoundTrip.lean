import ContextPolicy.Proofs.Condition.Blocks

/-! Facts, compiled and extracted.

`extract_of_compile` says when a graph gives back the facts that some of its triples were
compiled from: it answers for their content as they would, it has their links and no other,
and it types the root if they do. It does not matter what else is in the graph, nor what
labels the blank nodes have in it. The graph of the compiled triples alone does all this,
whatever the root (`extract_ofTriples_compile`). -/
namespace ContextPolicy

namespace Facts

/-- Facts as they are made: each behind its own dimension. -/
inductive Built : Facts → Prop
  | empty : Built ∅
  | insert {f : Facts} (h : Built f) (fact : Fact) : Built (f.insert fact)
  | remove {f : Facts} (h : Built f) (d : Dimension) : Built (f.remove d)

theorem Built.dimension_eq {f : Facts} (h : f.Built) :
    ∀ d fact, f.get? d = some fact → fact.dimension = d := by
  induction h with
  | empty =>
    intro d fact hget
    simp at hget
  | @insert f _ new ih =>
    intro d fact hget
    rw [get?_insert] at hget
    split at hget
    · next hd =>
      cases hget
      exact hd.symm
    · exact ih d fact hget
  | @remove f _ e ih =>
    intro d fact hget
    rw [get?_remove] at hget
    split at hget
    · cases hget
    · exact ih d fact hget

theorem ext_get? {f g : Facts} (h : ∀ d, f.get? d = g.get? d) : f = g := by
  have huser := h .user
  have htime := h .time
  have houtdoor := h .outdoor
  have henvironment := h .environment
  have hdevice := h .device
  cases f
  cases g
  simp_all [get?]

/-- The numbers that facts are made of. -/
def numbers (f : Facts) : List Float :=
  f.toList.flatMap Fact.numbers

theorem toList_eq_filterMap (f : Facts) : f.toList = Dimension.all.filterMap f.get? := by
  rw [toList, entries, List.map_filterMap]
  refine List.filterMap_congr fun d _ => ?_
  cases f.get? d <;> rfl

theorem mem_toList_iff {f : Facts} {fact : Fact} :
    fact ∈ f.toList ↔ ∃ d, f.get? d = some fact := by
  rw [toList_eq_filterMap, List.mem_filterMap]
  constructor
  · rintro ⟨d, -, h⟩
    exact ⟨d, h⟩
  · rintro ⟨d, h⟩
    exact ⟨d, Dimension.mem_all d, h⟩

theorem Built.dimensions_nodup {f : Facts} (h : f.Built) :
    (f.toList.map Fact.dimension).Nodup := by
  have hdims : f.toList.map Fact.dimension =
      Dimension.all.filterMap fun d => (f.get? d).map fun _ => d := by
    rw [toList_eq_filterMap, List.map_filterMap]
    refine List.filterMap_congr fun d _ => ?_
    cases hd : f.get? d with
    | none => rfl
    | some fact => exact congrArg some (h.dimension_eq d fact hd)
  rw [hdims]
  refine List.Nodup.filterMap ?_ (by decide)
  intro d e d' hd he
  obtain ⟨_, -, rfl⟩ := Option.map_eq_some_iff.mp hd
  obtain ⟨_, -, rfl⟩ := Option.map_eq_some_iff.mp he
  rfl

/-- The facts with the fact of one dimension taken from others that have one. -/
def restore (f acc : Facts) (d : Dimension) : Facts :=
  acc.set d ((f.get? d).or (acc.get? d))

theorem restore_of_none {f : Facts} {d : Dimension} (acc : Facts) (h : f.get? d = none) :
    f.restore acc d = acc := by
  rw [restore, h, Option.none_or]
  cases d <;> rfl

theorem get?_restore (f acc : Facts) (d e : Dimension) :
    (f.restore acc d).get? e = if e = d then (f.get? d).or (acc.get? d) else acc.get? e :=
  get?_set acc d e _

theorem get?_foldl_restore (f acc : Facts) (ds : List Dimension) (e : Dimension) :
    (ds.foldl f.restore acc).get? e =
      if e ∈ ds then (f.get? e).or (acc.get? e) else acc.get? e := by
  induction ds generalizing acc with
  | nil => simp
  | cons d rest ih =>
    rw [List.foldl_cons, ih, get?_restore]
    by_cases hd : e = d
    · subst hd
      cases f.get? e <;> simp
    · simp [hd]

theorem foldl_restore_all (f : Facts) : Dimension.all.foldl f.restore ∅ = f := by
  refine ext_get? fun d => ?_
  rw [get?_foldl_restore, if_pos (Dimension.mem_all d), get?_empty, Option.or_none]

end Facts

namespace Scheme
variable {s : Scheme} {g : Graph} {ρ : String → String}

/-- The blocks of facts give them back, and have no link for any other dimension. -/
theorem factOf_blocks {facts : List Fact} {n : Nat} {ts : List Triple}
    (h : s.blocks n facts = .ok ts) (hnd : (facts.map Fact.dimension).Nodup)
    (hnum : ∀ fact ∈ facts, ∀ x ∈ fact.numbers, x.isFinite → ReadsBack x)
    (hans : g.Answers ρ ts) :
    (∀ fact ∈ facts, ∃ node, earliest ts s.root fact.dimension.link = some node ∧
      g.factOf (node.rename ρ) fact.dimension = .ok fact) ∧
    ∀ d, d ∉ facts.map Fact.dimension → earliest ts s.root d.link = none := by
  induction facts generalizing n ts with
  | nil =>
    cases h
    exact ⟨fun fact hmem => absurd hmem List.not_mem_nil, fun d _ => rfl⟩
  | cons fact rest ih =>
    obtain ⟨us, next, vs, hus, hvs, rfl⟩ := blocks_cons_ok h
    obtain ⟨m, -, hrest⟩ := blocks_spans hvs
    have hapart := (block_spans hus).2.apart hrest (Nat.le_refl next)
    obtain ⟨hnew, hnd⟩ := List.nodup_cons.mp hnd
    obtain ⟨hfound, hnone⟩ := ih hvs hnd (fun f hf => hnum f (List.mem_cons_of_mem _ hf))
      (hans.right hapart)
    refine ⟨fun f hf => ?_, fun d hd => ?_⟩
    · rcases List.mem_cons.mp hf with rfl | hf
      · have hfact := factOf_block hus (hnum f List.mem_cons_self) (hans.left hapart)
        refine ⟨conditionNode n, ?_, hfact⟩
        rw [earliest_append, earliest_block_link _ hus, if_pos rfl, Option.some_or]
      · obtain ⟨node, hlink, hfact⟩ := hfound f hf
        have hne : f.dimension ≠ fact.dimension :=
          fun heq => hnew (heq ▸ List.mem_map_of_mem hf)
        refine ⟨node, ?_, hfact⟩
        rw [earliest_append, earliest_block_link _ hus, if_neg hne, Option.none_or, hlink]
    · rw [List.map_cons, List.mem_cons, not_or] at hd
      rw [earliest_append, earliest_block_link _ hus, if_neg hd.1, Option.none_or, hnone d hd.2]

/-- What a compiled condition consists of. -/
theorem compile_ok {facts : Facts} {ts : List Triple} (h : s.compile facts = .ok ts) :
    (facts = ∅ ∧ ts = []) ∨
      ∃ us, s.blocks 0 facts.toList = .ok us ∧ ts = s.typing :: us := by
  rw [compile] at h
  split at h
  · next hempty =>
    cases h
    refine .inl ⟨Facts.ext_get? fun d => ?_, rfl⟩
    rw [Facts.get?_empty, ← Option.not_isSome_iff_eq_none]
    intro hsome
    obtain ⟨fact, hfact⟩ := Option.isSome_iff_exists.mp hsome
    have hmem := Facts.mem_toList_iff.mpr ⟨d, hfact⟩
    rw [Facts.toList, List.isEmpty_iff.mp hempty] at hmem
    cases hmem
  · cases hus : s.blocks 0 facts.toList with
    | error e =>
      rw [hus] at h
      cases h
    | ok us =>
      rw [hus] at h
      cases h
      exact .inr ⟨us, rfl, rfl⟩

/-- The fact that is behind a dimension is read from the block that the root links to. -/
theorem factOf_compile {facts : Facts} {ts : List Triple} (hbuilt : facts.Built)
    (hnum : ∀ x ∈ facts.numbers, x.isFinite → ReadsBack x) (h : s.compile facts = .ok ts)
    (hans : g.Answers ρ ts) (d : Dimension) :
    match facts.get? d with
    | none => earliest ts s.root d.link = none
    | some fact => ∃ node, earliest ts s.root d.link = some node ∧
        g.factOf (node.rename ρ) d = .ok fact := by
  rcases compile_ok h with ⟨rfl, rfl⟩ | ⟨us, hus, rfl⟩
  · rw [Facts.get?_empty]
    rfl
  · have hnums : ∀ fact ∈ facts.toList, ∀ x ∈ fact.numbers, x.isFinite → ReadsBack x :=
      fun fact hf x hx => hnum x (List.mem_flatMap.mpr ⟨fact, hf, hx⟩)
    obtain ⟨hfound, hnone⟩ :=
      factOf_blocks hus hbuilt.dimensions_nodup hnums (hans.tail isContent_type)
    have hskip : earliest (s.typing :: us) s.root d.link = earliest us s.root d.link :=
      earliest_cons_of_ne fun _ => type_ne_link d
    cases hd : facts.get? d with
    | none =>
      refine hskip.trans (hnone d fun hmem => ?_)
      obtain ⟨fact, hf, hdim⟩ := List.mem_map.mp hmem
      obtain ⟨e, he⟩ := Facts.mem_toList_iff.mp hf
      rw [hbuilt.dimension_eq e fact he] at hdim
      rw [← hdim, he] at hd
      cases hd
    | some fact =>
      obtain ⟨node, hlink, hfact⟩ := hfound fact (Facts.mem_toList_iff.mpr ⟨d, hd⟩)
      rw [hbuilt.dimension_eq d fact hd] at hlink hfact
      exact ⟨node, hskip.trans hlink, hfact⟩

/-- A graph gives back the facts that its condition was compiled from. -/
theorem extract_of_compile {facts : Facts} {ts : List Triple} (hbuilt : facts.Built)
    (hnum : ∀ x ∈ facts.numbers, x.isFinite → ReadsBack x) (h : s.compile facts = .ok ts)
    (hans : g.Answers ρ ts)
    (hlinks : ∀ d : Dimension,
      g.firstObject s.root d.link = (earliest ts s.root d.link).map (Term.rename ρ))
    (htyped : s.typing ∈ ts → g.find ⟨some s.root, some (.named Names.Rdf.type),
      some (.named Names.Context.accessCondition)⟩ ≠ []) :
    s.extract g = .ok facts := by
  have hstep : ∀ acc d, s.extractDimension g acc d = .ok (facts.restore acc d) := by
    intro acc d
    have hd := factOf_compile hbuilt hnum h hans d
    rw [extractDimension, hlinks]
    cases hget : facts.get? d with
    | none =>
      rw [hget] at hd
      rw [hd, Facts.restore_of_none acc hget]
      rfl
    | some fact =>
      rw [hget] at hd
      obtain ⟨node, hlink, hfact⟩ := hd
      rw [hlink, Facts.restore, hget, Option.some_or]
      show (g.factOf _ d).map acc.insert = _
      rw [hfact]
      show Except.ok (acc.set fact.dimension (some fact)) = _
      rw [hbuilt.dimension_eq d fact hget]
  have hfold : ∀ (ds : List Dimension) (acc : Facts),
      ds.foldlM (s.extractDimension g) acc = .ok (ds.foldl facts.restore acc) := by
    intro ds
    induction ds with
    | nil => exact fun acc => rfl
    | cons d rest ih =>
      intro acc
      rw [List.foldlM_cons, hstep]
      exact ih _
  rw [extract]
  split
  · next hempty =>
    rcases compile_ok h with ⟨rfl, -⟩ | ⟨us, -, rfl⟩
    · rfl
    · exact absurd (List.isEmpty_iff.mp hempty) (htyped List.mem_cons_self)
  · rw [hfold, Facts.foldl_restore_all]

/-! ### The compiled triples alone -/

theorem firstObject_ofTriples (ts : List Triple) (x : Term) (q : String) :
    (Graph.ofTriples ts).firstObject x q = earliest ts x q := by
  rw [(Graph.indexed_ofTriples ts).firstObject_eq_earliest, Graph.triples_ofTriples]

theorem map_rename_id (o : Option Term) : o.map (Term.rename id) = o := by
  have hid : Term.rename id = id := funext Term.rename_id
  rw [hid, Option.map_id, id_eq]

/-- What was compiled is extracted again, whatever the root. -/
theorem extract_ofTriples_compile {facts : Facts} {ts : List Triple} (hbuilt : facts.Built)
    (hnum : ∀ x ∈ facts.numbers, x.isFinite → ReadsBack x) (h : s.compile facts = .ok ts) :
    s.extract (.ofTriples ts) = .ok facts := by
  have hans : (Graph.ofTriples ts).Answers id ts := by
    intro t _ _ q _
    rw [t.subject.rename_id, map_rename_id, firstObject_ofTriples]
  refine extract_of_compile hbuilt hnum h hans (fun d => ?_) fun htyping => ?_
  · rw [map_rename_id, firstObject_ofTriples]
  · refine (Graph.indexed_ofTriples ts).find_ne_nil (t := s.typing) ?_
    rw [Graph.triples_ofTriples]
    exact htyping

/-- A blank root with the label of the first block, operators with no or one operand, and
numbers that binary fractions only come close to. -/
theorem extract_ofTriples_compile_blank :
    let staff : Keywords := (∅ : Keywords).insert "staff" ⟨"urn:org#role", .plain "staff"⟩
    let s : Scheme := ⟨conditionNode 0, ⟨staff, ∅, ∅⟩, .dayMonthYear⟩
    let facts : Facts :=
      ((((∅ : Facts).insert (.user (some (.all [.not (.any []), .all [.keyword "Staff"]])))).insert
        (.time ⟨some "01/01/2020", some "31/12/2020"⟩)).insert
        (.outdoor ⟨some 51.5, some (-0.12), some 300, .kilometers⟩)).remove .device
    ∃ ts, s.compile facts = .ok ts ∧ s.extract (.ofTriples ts) = .ok facts := by
  intro staff s facts
  have hbuilt : facts.Built := (((Facts.Built.empty.insert _).insert _).insert _).remove .device
  have hnum : ∀ x ∈ facts.numbers, x.isFinite → ReadsBack x := by decide +kernel
  have hok : (s.compile facts).toOption.isSome := by decide +kernel
  cases h : s.compile facts with
  | error e =>
    rw [h] at hok
    cases hok
  | ok ts => exact ⟨ts, rfl, extract_ofTriples_compile hbuilt hnum h⟩

end Scheme

end ContextPolicy
