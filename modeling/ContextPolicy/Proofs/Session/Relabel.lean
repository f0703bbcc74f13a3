import Mathlib.Data.List.Nodup
import Mathlib.Data.List.Perm.Subperm
import ContextPolicy.Proofs.Condition.Answers
import ContextPolicy.Session

/-! New labels for the blank nodes of a condition.

There are always as many free labels as asked for (`length_freshLabels`): among more labels
than are taken, the taken ones cannot be all. Each label of the triples gets one of its own
(`map_relabelling`), and so relabelled triples say what they said, about other nodes: no
label that was taken is among theirs (`relabelling_not_taken`), and a lookup in them is the
lookup in the old ones, renamed (`earliest_relabel`). -/
namespace ContextPolicy

/-! ### Free labels -/

section FreshLabels
variable {taken : List String} {count : Nat}

theorem nodup_conditionLabels (n : Nat) : ((List.range n).map conditionLabel).Nodup :=
  List.nodup_range.map conditionLabel_injective

theorem freshLabels_nodup : (freshLabels taken count).Nodup :=
  ((nodup_conditionLabels _).filter _).sublist (List.take_sublist _ _)

theorem not_taken_of_mem_freshLabels {label : String} (h : label ∈ freshLabels taken count) :
    label ∉ taken := by
  have hfree := (List.mem_filter.mp (List.mem_of_mem_take h)).2
  exact of_decide_eq_true hfree

theorem conditionLabel_of_mem_freshLabels {label : String} (h : label ∈ freshLabels taken count) :
    ∃ k, label = conditionLabel k := by
  obtain ⟨k, -, hk⟩ := List.mem_map.mp (List.mem_filter.mp (List.mem_of_mem_take h)).1
  exact ⟨k, hk.symm⟩

theorem length_freshLabels : (freshLabels taken count).length = count := by
  let candidates := (List.range (taken.length + count)).map conditionLabel
  have hcandidates : candidates.length = taken.length + count := by simp [candidates]
  have hused : (candidates.filter (· ∈ taken)).length ≤ taken.length := by
    have hnodup : candidates.Nodup := nodup_conditionLabels _
    refine ((hnodup.filter _).subperm fun label hmem => ?_).length_le
    exact of_decide_eq_true (List.mem_filter.mp hmem).2
  have hsplit := List.length_eq_length_filter_add (l := candidates) (· ∈ taken)
  have hfree : candidates.filter (fun label => !decide (label ∈ taken)) =
      candidates.filter (· ∉ taken) :=
    List.filter_congr fun label _ => by simp
  rw [hfree] at hsplit
  show ((candidates.filter (· ∉ taken)).take count).length = count
  rw [List.length_take]
  omega

end FreshLabels

/-! ### The labels of triples -/

/-- Whether a label is that of a node of some triples. -/
theorem mem_flatMap_label?_iff {ts : List Triple} {label : String} :
    (label ∈ ts.flatMap fun t => [t.subject, t.object].filterMap Term.label?) ↔
      ∃ t ∈ ts, t.subject = .blank label ∨ t.object = .blank label := by
  have hlabel : ∀ x : Term, x.label? = some label ↔ x = .blank label := by
    intro x
    cases x <;> simp [Term.label?]
  simp [List.mem_flatMap, List.mem_filterMap, hlabel, eq_comm]

theorem mem_labelsOf {ts : List Triple} {label : String} :
    label ∈ labelsOf ts ↔ ∃ t ∈ ts, t.subject = .blank label ∨ t.object = .blank label := by
  rw [labelsOf, List.mem_eraseDups, mem_flatMap_label?_iff]

theorem Graph.mem_blankLabels {g : Graph} {label : String} :
    label ∈ g.blankLabels ↔
      ∃ t ∈ g.triples, t.subject = .blank label ∨ t.object = .blank label := by
  rw [blankLabels, Std.ExtTreeSet.mem_toList, Std.ExtTreeSet.mem_ofList, List.contains_iff_mem,
    mem_flatMap_label?_iff]

theorem nodup_eraseDups (labels : List String) : labels.eraseDups.Nodup := by
  induction hn : labels.length using Nat.strong_induction_on generalizing labels with
  | _ n ih =>
    cases labels with
    | nil => exact List.nodup_nil
    | cons label rest =>
      have hlen := List.length_filter_le (fun other => !other == label) rest
      rw [List.eraseDups_cons, List.nodup_cons]
      refine ⟨by simp, ih _ ?_ _ rfl⟩
      rw [← hn, List.length_cons]
      omega

/-! ### Renaming -/

/-- The label that a label of some triples is replaced by. -/
def relabelling (taken : List String) (ts : List Triple) (label : String) : String :=
  (((labelsOf ts).zip (freshLabels taken (labelsOf ts).length)).lookup label).getD label

theorem renameBlank_eq_rename (names : List (String × String)) :
    renameBlank names = Term.rename fun label => (names.lookup label).getD label := by
  funext x
  cases x <;> rfl

theorem Term.rename_rename (ρ σ : String → String) (x : Term) :
    (x.rename σ).rename ρ = x.rename (ρ ∘ σ) := by
  cases x <;> rfl

theorem Term.rename_injective {ρ : String → String} (hρ : Function.Injective ρ) :
    Function.Injective (Term.rename ρ) := by
  intro x y h
  cases x <;> cases y <;> simp_all [Term.rename, hρ.eq_iff]

theorem relabel_eq (taken : List String) (ts : List Triple) :
    relabel taken ts = ts.map (Triple.mapNodes (Term.rename (relabelling taken ts))) := by
  rw [relabel, renameBlank_eq_rename]
  rfl

/-- A lookup of a node that is told from the subjects before and after its replacement. -/
theorem earliest_mapNodes {f : Term → Term} {ts : List Triple} {x : Term}
    (hx : ∀ t ∈ ts, f t.subject = f x ↔ t.subject = x) (q : String) :
    earliest (ts.map (Triple.mapNodes f)) (f x) q = (earliest ts x q).map f := by
  have hfound : ∀ t ∈ ts, (f t.subject == f x && t.predicate == q) =
      (t.subject == x && t.predicate == q) := by
    intro t ht
    rw [Bool.eq_iff_iff]
    simp only [Bool.and_eq_true, beq_iff_eq, hx t ht]
  rw [earliest, List.find?_map, Option.map_map, earliest, Option.map_map,
    ← List.head?_filter, ← List.head?_filter, ← List.filter_congr hfound]
  rfl

/-- Distinct keys look up the values that they are paired with. -/
theorem map_lookup_zip {xs ys : List String} (hxs : xs.Nodup) (hlen : xs.length = ys.length) :
    xs.map (fun x => ((xs.zip ys).lookup x).getD x) = ys := by
  induction xs generalizing ys with
  | nil => exact (List.eq_nil_of_length_eq_zero hlen.symm).symm
  | cons x xs ih =>
    cases ys with
    | nil => cases hlen
    | cons y ys =>
      obtain ⟨hx, hxs⟩ := List.nodup_cons.mp hxs
      have htail : ∀ z ∈ xs, (((x :: xs).zip (y :: ys)).lookup z).getD z =
          ((xs.zip ys).lookup z).getD z := by
        intro z hz
        have hne : (z == x) = false := beq_false_of_ne fun h => hx (h ▸ hz)
        rw [List.zip_cons_cons, List.lookup_cons, hne]
      rw [List.map_cons, List.map_congr_left htail, ih hxs (Nat.succ.inj hlen), List.zip_cons_cons,
        List.lookup_cons_self, Option.getD_some]

section Relabel
variable {taken : List String} {ts : List Triple}

/-- The labels become the first free ones, in their order. -/
theorem map_relabelling :
    (labelsOf ts).map (relabelling taken ts) = freshLabels taken (labelsOf ts).length :=
  map_lookup_zip (nodup_eraseDups _) length_freshLabels.symm

theorem relabelling_mem_freshLabels {label : String} (h : label ∈ labelsOf ts) :
    relabelling taken ts label ∈ freshLabels taken (labelsOf ts).length := by
  rw [← map_relabelling]
  exact List.mem_map_of_mem h

theorem relabelling_not_taken {label : String} (h : label ∈ labelsOf ts) :
    relabelling taken ts label ∉ taken :=
  not_taken_of_mem_freshLabels (relabelling_mem_freshLabels h)

theorem relabelling_eq_conditionLabel {label : String} (h : label ∈ labelsOf ts) :
    ∃ k, relabelling taken ts label = conditionLabel k :=
  conditionLabel_of_mem_freshLabels (relabelling_mem_freshLabels h)

theorem relabelling_inj {label other : String} (h : label ∈ labelsOf ts)
    (hother : other ∈ labelsOf ts)
    (heq : relabelling taken ts label = relabelling taken ts other) : label = other := by
  have hnodup : ((labelsOf ts).map (relabelling taken ts)).Nodup := by
    rw [map_relabelling]
    exact freshLabels_nodup
  exact List.inj_on_of_nodup_map hnodup h hother heq

/-- Different subjects stay different, and different from every term without a label. -/
theorem subject_rename_inj {t : Triple} {x : Term} (ht : t ∈ ts)
    (hx : ∀ label, x = .blank label → label ∈ labelsOf ts)
    (heq : t.subject.rename (relabelling taken ts) = x.rename (relabelling taken ts)) :
    t.subject = x := by
  cases hs : t.subject with
  | named iri | literal value datatype lang =>
    rw [hs] at heq
    cases x with
    | blank label => cases heq
    | _ => exact heq
  | blank label =>
    rw [hs] at heq
    cases x with
    | named iri | literal value datatype lang => cases heq
    | blank other =>
      have hlabel : label ∈ labelsOf ts := mem_labelsOf.mpr ⟨t, ht, .inl hs⟩
      exact congrArg _ (relabelling_inj hlabel (hx other rfl) (Term.blank.inj heq))

/-- Lookups in relabelled triples. -/
theorem earliest_relabel {x : Term} (hx : ∀ label, x = .blank label → label ∈ labelsOf ts)
    (q : String) :
    earliest (relabel taken ts) (x.rename (relabelling taken ts)) q =
      (earliest ts x q).map (Term.rename (relabelling taken ts)) := by
  rw [relabel_eq]
  exact earliest_mapNodes (fun t ht => ⟨subject_rename_inj ht hx, fun h => congrArg _ h⟩) q

end Relabel

end ContextPolicy
