import Mathlib.Data.Nat.Nth
import ContextPolicy.Proofs.Session.Relabel

/-! The order in which labels are handed out.

There is no end to the free numbers (`infinite_free`), and the free labels are those of the
first of them, in their order (`freshLabels_eq`). So a label's place among those that are met
says which one it becomes.

The same labels are handed out in one pass (`Labeller`), which names a node when it first meets
it: it tries the numbers from the one behind the last that it gave, and none of them twice. Its
search ends, since each number that it passes over uses up a taken label (`nextFree`). What it has
met and what it has given go together (`Handed`). Each step keeps that, and the names that it gave
stay as they are, so the triples that it leaves behind are those of the finished renaming
(`Labeller.run_eq`). -/
namespace ContextPolicy

/-! ### Free numbers -/

section FreeNumbers
variable {taken : List String} {count : Nat}

/-- A number whose label is not taken. -/
def IsFree (taken : List String) (n : Nat) : Prop :=
  conditionLabel n ∉ taken

instance (taken : List String) : DecidablePred (IsFree taken) :=
  fun n => inferInstanceAs (Decidable (conditionLabel n ∉ taken))

theorem infinite_free (taken : List String) : {n | IsFree taken n}.Infinite := by
  have hused : {n | conditionLabel n ∈ taken}.Finite :=
    taken.finite_toSet.preimage conditionLabel_injective.injOn
  exact hused.infinite_compl

/-- The numbers below a bound that have a property are the first ones that have it. -/
theorem filter_range_eq_map_nth (p : Nat → Prop) [DecidablePred p] (bound : Nat) :
    (List.range bound).filter p = (List.range (Nat.count p bound)).map (Nat.nth p) := by
  induction bound with
  | zero => rfl
  | succ n ih =>
    rw [List.range_succ, List.filter_append, ih, Nat.count_succ]
    by_cases hn : p n
    · rw [if_pos hn, List.range_succ, List.map_append, List.map_singleton, Nat.nth_count hn,
        List.filter_singleton, decide_eq_true hn, cond_true]
    · rw [if_neg hn, Nat.add_zero, List.filter_singleton, decide_eq_false hn, cond_false,
        List.append_nil]

theorem freshLabels_eq : freshLabels taken count =
    (List.range count).map fun k => conditionLabel (Nat.nth (IsFree taken) k) := by
  have hfilter : ((List.range (taken.length + count)).map conditionLabel).filter (· ∉ taken) =
      ((List.range (taken.length + count)).filter (IsFree taken)).map conditionLabel :=
    List.filter_map
  have hlabels : freshLabels taken count =
      (List.range (min count (Nat.count (IsFree taken) (taken.length + count)))).map fun k =>
        conditionLabel (Nat.nth (IsFree taken) k) := by
    rw [freshLabels, hfilter, filter_range_eq_map_nth, List.map_map, ← List.map_take,
      List.take_range]
    rfl
  have hlength : (freshLabels taken count).length = count := length_freshLabels
  rw [hlabels, List.length_map, List.length_range] at hlength
  rw [hlabels, hlength]

theorem freshLabels_succ : freshLabels taken (count + 1) =
    freshLabels taken count ++ [conditionLabel (Nat.nth (IsFree taken) count)] := by
  rw [freshLabels_eq, List.range_succ, List.map_append, ← freshLabels_eq, List.map_singleton]

end FreeNumbers

/-! ### The search for a free number -/

/-- The first free number from `n` on. -/
def nextFree (taken : List String) (n : Nat) : Nat :=
  if hfree : IsFree taken n then n else nextFree taken (n + 1)
termination_by (taken.toFinset \ (Finset.range n).image conditionLabel).card
decreasing_by
  -- The label that was tried is one of the taken ones, and is not tried again.
  have hmem : conditionLabel n ∈ taken.toFinset \ (Finset.range n).image conditionLabel := by
    refine Finset.mem_sdiff.mpr ⟨List.mem_toFinset.mpr (not_not.mp hfree), fun himage => ?_⟩
    obtain ⟨m, hm, heq⟩ := Finset.mem_image.mp himage
    exact absurd (conditionLabel_injective heq) (Finset.mem_range.mp hm).ne
  rw [Finset.range_add_one, Finset.image_insert, Finset.sdiff_insert]
  exact Finset.card_erase_lt_of_mem hmem

section NextFree
variable {taken : List String}

theorem isFree_nextFree (n : Nat) : IsFree taken (nextFree taken n) := by
  induction n using nextFree.induct taken with
  | case1 n hfree => rwa [nextFree, dif_pos hfree]
  | case2 n hused ih => rwa [nextFree, dif_neg hused]

/-- No free number is passed over. -/
theorem count_nextFree (n : Nat) :
    Nat.count (IsFree taken) (nextFree taken n) = Nat.count (IsFree taken) n := by
  induction n using nextFree.induct taken with
  | case1 n hfree => rw [nextFree, dif_pos hfree]
  | case2 n hused ih =>
    rw [nextFree, dif_neg hused, ih, Nat.count_succ, if_neg hused, Nat.add_zero]

/-- The search gives the free number that has as many before it as have been given. -/
theorem nextFree_eq_nth (n : Nat) :
    nextFree taken n = Nat.nth (IsFree taken) (Nat.count (IsFree taken) n) := by
  rw [← count_nextFree, Nat.nth_count (isFree_nextFree n)]

end NextFree

/-! ### One pass -/

/-- What a pass over triples has handed out. -/
structure Labeller where
  /-- The labels that it has met, each with the one that it has given. -/
  names : List (String × String)
  /-- The number that it tries next. -/
  next : Nat

namespace Labeller

def start : Labeller :=
  ⟨[], 0⟩

/-- The label that is given for one that has been met. -/
def given (p : Labeller) (label : String) : String :=
  (p.names.lookup label).getD label

def meet (taken : List String) (p : Labeller) (label : String) : Labeller :=
  if label ∈ p.names.map (·.1) then p
  else
    let n := nextFree taken p.next
    ⟨p.names ++ [(label, conditionLabel n)], n + 1⟩

def node (taken : List String) (p : Labeller) : Term → Term × Labeller
  | .blank label =>
    let p := p.meet taken label
    (.blank (p.given label), p)
  | x => (x, p)

def triple (taken : List String) (p : Labeller) (t : Triple) : Triple × Labeller :=
  let (subject, p) := p.node taken t.subject
  let (object, p) := p.node taken t.object
  (⟨subject, t.predicate, object⟩, p)

def run (taken : List String) (p : Labeller) : List Triple → List Triple × Labeller
  | [] => ([], p)
  | t :: rest =>
    let (t, p) := p.triple taken t
    let (rest, p) := p.run taken rest
    (t :: rest, p)

end Labeller

/-! ### The labels that are met -/

/-- The labels of the nodes of triples, one after the other, each as often as it occurs. -/
def metLabels (ts : List Triple) : List String :=
  ts.flatMap fun t => [t.subject, t.object].filterMap Term.label?

theorem eraseDups_snoc_of_mem {labels : List String} {label : String} (h : label ∈ labels) :
    (labels ++ [label]).eraseDups = labels.eraseDups := by
  have hnone : [label].removeAll labels = [] := by simp [List.removeAll, h]
  rw [List.eraseDups_append, hnone, List.eraseDups_nil, List.append_nil]

theorem eraseDups_append_cons {before : List String} {label : String} (h : label ∉ before)
    (after : List String) : (before ++ label :: after).eraseDups = before.eraseDups ++
      label :: ((after.removeAll before).filter fun other => !other == label).eraseDups := by
  have hself : (label :: after).removeAll before = label :: after.removeAll before := by
    simp [List.removeAll, h]
  rw [List.eraseDups_append, hself, List.eraseDups_cons]

theorem length_eraseDups (labels : List String) :
    labels.eraseDups.length = labels.toFinset.card := by
  rw [← List.toFinset_card_of_nodup (nodup_eraseDups labels)]
  congr 1
  ext label
  rw [List.mem_toFinset, List.mem_toFinset, List.mem_eraseDups]

/-! ### What a pass keeps -/

/-- The labels that have been met, each once, have got the first free labels in their order. -/
structure Handed (taken met : List String) (p : Labeller) : Prop where
  names : p.names = met.eraseDups.zip (freshLabels taken met.eraseDups.length)
  next : Nat.count (IsFree taken) p.next = met.eraseDups.length

namespace Handed
variable {taken met : List String} {p : Labeller}

theorem start (taken : List String) : Handed taken [] .start :=
  ⟨rfl, Nat.count_zero _⟩

theorem keys (h : Handed taken met p) : p.names.map (·.1) = met.eraseDups := by
  rw [h.names, List.map_fst_zip]
  rw [length_freshLabels]

theorem meet (h : Handed taken met p) (label : String) :
    Handed taken (met ++ [label]) (p.meet taken label) := by
  have hmet : label ∈ p.names.map (·.1) ↔ label ∈ met := by rw [h.keys, List.mem_eraseDups]
  by_cases hlabel : label ∈ met
  · rw [Labeller.meet, if_pos (hmet.mpr hlabel)]
    refine ⟨?_, ?_⟩
    · rw [eraseDups_snoc_of_mem hlabel, h.names]
    · rw [eraseDups_snoc_of_mem hlabel, h.next]
  · have hsnoc : (met ++ [label]).eraseDups = met.eraseDups ++ [label] :=
      eraseDups_append_cons hlabel []
    have hnew : nextFree taken p.next = Nat.nth (IsFree taken) met.eraseDups.length := by
      rw [nextFree_eq_nth, h.next]
    rw [Labeller.meet, if_neg (mt hmet.mp hlabel)]
    refine ⟨?_, ?_⟩
    · rw [hsnoc, List.length_append, List.length_singleton, freshLabels_succ,
        List.zip_append length_freshLabels.symm, ← h.names, hnew]
      rfl
    · rw [hsnoc, List.length_append, List.length_singleton, Nat.count_succ,
        if_pos (isFree_nextFree _), count_nextFree, h.next]

theorem node (h : Handed taken met p) (x : Term) :
    Handed taken (met ++ x.label?.toList) (p.node taken x).2 := by
  cases x with
  | blank label => exact h.meet label
  | named iri | literal value datatype lang =>
    show Handed taken (met ++ []) p
    rwa [List.append_nil]

theorem triple (h : Handed taken met p) (t : Triple) :
    Handed taken (met ++ metLabels [t]) (p.triple taken t).2 := by
  have hlabels : metLabels [t] = t.subject.label?.toList ++ t.object.label?.toList := by
    cases hs : t.subject.label? <;> cases ho : t.object.label? <;> simp [metLabels, hs, ho]
  rw [hlabels, ← List.append_assoc]
  exact (h.node t.subject).node t.object

theorem run (h : Handed taken met p) (ts : List Triple) :
    Handed taken (met ++ metLabels ts) (p.run taken ts).2 := by
  induction ts generalizing met p with
  | nil => rwa [metLabels, List.flatMap_nil, List.append_nil]
  | cons t rest ih =>
    have hsplit : metLabels (t :: rest) = metLabels [t] ++ metLabels rest := by
      rw [metLabels, metLabels, metLabels, ← List.flatMap_append, List.singleton_append]
    rw [hsplit, ← List.append_assoc]
    exact ih (h.triple t)

end Handed

/-! ### What a pass leaves behind -/

namespace Labeller
variable {taken : List String} {p q : Labeller} {label : String}

theorem names_meet (taken : List String) (p : Labeller) (label : String) :
    p.names <+: (p.meet taken label).names := by
  unfold meet
  split
  · exact List.prefix_refl _
  · exact List.prefix_append _ _

theorem names_node (taken : List String) (p : Labeller) (x : Term) :
    p.names <+: (p.node taken x).2.names := by
  cases x with
  | blank label => exact p.names_meet taken label
  | named iri | literal value datatype lang => exact List.prefix_refl _

theorem names_run (taken : List String) (p : Labeller) (ts : List Triple) :
    p.names <+: (p.run taken ts).2.names := by
  induction ts generalizing p with
  | nil => exact List.prefix_refl _
  | cons t rest ih =>
    exact ((p.names_node taken _).trans (names_node taken _ _)).trans (ih _)

theorem mem_meet (taken : List String) (p : Labeller) (label : String) :
    label ∈ (p.meet taken label).names.map (·.1) := by
  unfold meet
  split
  · assumption
  · simp

/-- What has been given stays. -/
theorem given_stays (hlabel : label ∈ p.names.map (·.1)) (hq : p.names <+: q.names) :
    p.given label = q.given label := by
  obtain ⟨more, hmore⟩ := hq
  obtain ⟨entry, hentry, rfl⟩ := List.mem_map.mp hlabel
  obtain ⟨new, hnew⟩ : ∃ new, p.names.lookup entry.1 = some new := by
    rw [← Option.isSome_iff_exists, List.lookup_isSome_iff]
    exact ⟨entry, hentry, beq_self_eq_true entry.1⟩
  rw [given, given, ← hmore, List.lookup_append, hnew, Option.some_or]

theorem node_eq (x : Term) (hq : (p.node taken x).2.names <+: q.names) :
    (p.node taken x).1 = x.rename q.given := by
  cases x with
  | blank label => exact congrArg Term.blank (given_stays (p.mem_meet taken label) hq)
  | named iri | literal value datatype lang => rfl

theorem triple_eq (t : Triple) (hq : (p.triple taken t).2.names <+: q.names) :
    (p.triple taken t).1 = t.mapNodes (Term.rename q.given) := by
  have hsubject : (p.node taken t.subject).1 = t.subject.rename q.given :=
    node_eq t.subject ((names_node taken _ t.object).trans hq)
  have hobject : ((p.node taken t.subject).2.node taken t.object).1 = t.object.rename q.given :=
    node_eq t.object hq
  rw [Triple.mapNodes, ← hsubject, ← hobject]
  rfl

/-- The triples are renamed by what the pass has given in the end. -/
theorem run_eq (ts : List Triple) (hq : (p.run taken ts).2.names <+: q.names) :
    (p.run taken ts).1 = ts.map (Triple.mapNodes (Term.rename q.given)) := by
  induction ts generalizing p with
  | nil => rfl
  | cons t rest ih =>
    rw [List.map_cons, ← triple_eq t ((names_run taken _ rest).trans hq), ← ih hq]
    rfl

end Labeller

section Relabel
variable {taken : List String} {ts : List Triple} {before after : List String} {label : String}

theorem run_start_eq (taken : List String) (ts : List Triple) :
    (Labeller.start.run taken ts).1 = relabel taken ts := by
  have hnames : (Labeller.start.run taken ts).2.names =
      (labelsOf ts).zip (freshLabels taken (labelsOf ts).length) :=
    ((Handed.start taken).run ts).names
  have hgiven : (Labeller.start.run taken ts).2.given = relabelling taken ts := by
    funext label
    rw [Labeller.given, hnames, relabelling]
  rw [Labeller.run_eq ts (List.prefix_refl _), hgiven, relabel_eq]

/-- A label becomes the free one whose place is the number of labels met before it. -/
theorem relabelling_eq_nth (h : metLabels ts = before ++ label :: after) (hnew : label ∉ before) :
    relabelling taken ts label =
      conditionLabel (Nat.nth (IsFree taken) before.toFinset.card) := by
  have hlabels : (labelsOf ts)[before.toFinset.card]? = some label := by
    show (metLabels ts).eraseDups[before.toFinset.card]? = some label
    rw [h, eraseDups_append_cons hnew, ← length_eraseDups,
      List.getElem?_append_right (Nat.le_refl _), Nat.sub_self, List.getElem?_cons_zero]
  have hlt : before.toFinset.card < (labelsOf ts).length :=
    (List.getElem?_eq_some_iff.mp hlabels).1
  have hplace : ((labelsOf ts).map (relabelling taken ts))[before.toFinset.card]? =
      some (conditionLabel (Nat.nth (IsFree taken) before.toFinset.card)) := by
    rw [map_relabelling, freshLabels_eq, List.getElem?_map, List.getElem?_range hlt,
      Option.map_some]
  rw [List.getElem?_map, hlabels, Option.map_some] at hplace
  exact Option.some.inj hplace

/-- Relabelled triples are what one pass leaves behind: the same ones with their blank nodes
renamed, no two alike and none as a taken one. A label becomes the free label whose place among
those is the number of labels that are met before it. -/
theorem relabel_in_order (taken : List String) (ts : List Triple) :
    (Labeller.start.run taken ts).1 = relabel taken ts ∧
    {n | IsFree taken n}.Infinite ∧
    ∃ ρ : String → String,
      relabel taken ts = ts.map (Triple.mapNodes (Term.rename ρ)) ∧
      Set.InjOn ρ {label | label ∈ metLabels ts} ∧
      (∀ label ∈ metLabels ts, ρ label ∉ taken) ∧
      ∀ before label after, metLabels ts = before ++ label :: after → label ∉ before →
        ρ label = conditionLabel (Nat.nth (IsFree taken) before.toFinset.card) := by
  have hlabel : ∀ label, label ∈ labelsOf ts ↔ label ∈ metLabels ts :=
    fun label => List.mem_eraseDups
  refine ⟨run_start_eq taken ts, infinite_free taken, relabelling taken ts, relabel_eq taken ts,
    ?_, ?_, ?_⟩
  · exact fun label h other hother =>
      relabelling_inj ((hlabel label).mpr h) ((hlabel other).mpr hother)
  · exact fun label h => relabelling_not_taken ((hlabel label).mpr h)
  · exact fun before label after h hnew => relabelling_eq_nth h hnew

end Relabel

end ContextPolicy
