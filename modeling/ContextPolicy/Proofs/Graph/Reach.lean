import Mathlib.Logic.Relation
import ContextPolicy.Graph.Describe
import ContextPolicy.Proofs.Graph.Lookup

/-! What a walk over a graph finds.

`Reaches` says where triples lead, from blank node to blank node, without a word about
walks. A walk marks nothing else (`reach_sound`). It ends with nothing pending, and until
then whatever a marked node leads to is marked or pending (`reach_closed`), so it misses
nothing either: `mem_reach_iff`. A description is what is said of the nodes found
(`describe_reached`). -/
namespace ContextPolicy

/-- A triple has the one node as its subject and the other, a blank node, as its object. -/
def LeadsTo (ts : List Triple) (x y : Term) : Prop :=
  y.isBlank ∧ ∃ t ∈ ts, t.subject = x ∧ t.object = y

/-- The node itself, and each blank node that it leads to over blank nodes. -/
def Reaches (ts : List Triple) : Term → Term → Prop :=
  Relation.ReflTransGen (LeadsTo ts)

namespace Reaches
variable {us vs : List Triple} {x y z : Term}

theorem refl : Reaches us x x :=
  Relation.ReflTransGen.refl

theorem trans (h : Reaches us x y) (h' : Reaches us y z) : Reaches us x z :=
  Relation.ReflTransGen.trans h h'

/-- The object of a triple, if it is a blank node. -/
theorem of_mem {t : Triple} (ht : t ∈ us) (hblank : t.object.isBlank) :
    Reaches us t.subject t.object :=
  Relation.ReflTransGen.single ⟨hblank, t, ht, rfl, rfl⟩

theorem mono (h : Reaches us x y) (hsub : us ⊆ vs) : Reaches vs x y := by
  refine Relation.ReflTransGen.mono ?_ x y h
  rintro a b ⟨hblank, t, ht, hsubject, hobject⟩
  exact ⟨hblank, t, hsub ht, hsubject, hobject⟩

/-- What holds of a node, and goes over to every blank node that follows, holds of all. -/
theorem preserves {p : Term → Prop} (h : Reaches us x y) (hx : p x)
    (hstep : ∀ t ∈ us, p t.subject → t.object.isBlank → p t.object) : p y := by
  induction h with
  | refl => exact hx
  | tail _ hlast ih =>
    obtain ⟨hblank, t, ht, rfl, rfl⟩ := hlast
    exact hstep t ht ih hblank

/-- Only blank nodes are come to, and each as an object. -/
theorem eq_or_object (h : Reaches us x y) : y = x ∨ y.isBlank ∧ y ∈ us.map (·.object) := by
  cases h with
  | refl => exact .inl rfl
  | tail _ hlast =>
    obtain ⟨hblank, t, ht, -, rfl⟩ := hlast
    exact .inr ⟨hblank, List.mem_map_of_mem ht⟩

theorem eq_or_isBlank (h : Reaches us x y) : y = x ∨ y.isBlank :=
  h.eq_or_object.imp_right And.left

end Reaches

namespace Graph
variable {g : Graph} {x y : Term}

theorem Indexed.mem_blankObjects (h : g.Indexed) :
    y ∈ g.blankObjects x ↔ LeadsTo g.triples x y := by
  have hacc : ∀ t : Triple, Pattern.accepts ⟨some x, none, none⟩ t = true ↔ t.subject = x := by
    intro t
    rw [Pattern.accepts_iff]
    constructor
    · exact fun hall => hall .subject x rfl
    · rintro rfl pos z hz
      cases pos <;> cases hz
      rfl
  simp only [blankObjects, h.find_triples, List.mem_filter, List.mem_map, hacc, LeadsTo]
  constructor
  · rintro ⟨⟨t, ⟨ht, hsubject⟩, hobject⟩, hblank⟩
    exact ⟨hblank, t, ht, hsubject, hobject⟩
  · rintro ⟨hblank, t, ht, hsubject, hobject⟩
    exact ⟨⟨t, ⟨ht, hsubject⟩, hobject⟩, hblank⟩

/-- Nothing is marked that nothing leads to. -/
theorem reach_sound (h : g.Indexed) {marked pending : List Term}
    (hy : y ∈ g.reach marked pending) :
    y ∈ marked ∨ ∃ x ∈ pending, Reaches g.triples x y := by
  fun_induction reach g marked pending with
  | case1 marked => exact .inl hy
  | case2 marked x pending hx ih =>
    rcases ih hy with hmem | ⟨z, hz, hzy⟩
    · exact .inl hmem
    · exact .inr ⟨z, List.mem_cons_of_mem x hz, hzy⟩
  | case3 marked x pending hx ih =>
    rcases ih hy with hmem | ⟨z, hz, hzy⟩
    · rcases List.mem_cons.mp hmem with rfl | hmem
      · exact .inr ⟨y, List.mem_cons_self, .refl⟩
      · exact .inl hmem
    · rcases List.mem_append.mp hz with hz | hz
      · have hfirst := h.mem_blankObjects.mp hz
        exact .inr ⟨x, List.mem_cons_self, Relation.ReflTransGen.head hfirst hzy⟩
      · exact .inr ⟨z, List.mem_cons_of_mem x hz, hzy⟩

theorem subset_reach (g : Graph) (marked pending : List Term) :
    marked ⊆ g.reach marked pending ∧ pending ⊆ g.reach marked pending := by
  fun_induction reach g marked pending with
  | case1 marked => exact ⟨fun _ => id, List.nil_subset _⟩
  | case2 marked x pending hx ih =>
    exact ⟨ih.1, List.cons_subset.mpr ⟨ih.1 hx, ih.2⟩⟩
  | case3 marked x pending hx ih =>
    obtain ⟨hx, hmarked⟩ := List.cons_subset.mp ih.1
    exact ⟨hmarked, List.cons_subset.mpr ⟨hx, (List.append_subset.mp ih.2).2⟩⟩

/-- If nothing that marked nodes lead to is forgotten, all of it is marked in the end. -/
theorem reach_closed (h : g.Indexed) (marked pending : List Term)
    (hinv : ∀ x ∈ marked, ∀ y, LeadsTo g.triples x y → y ∈ marked ∨ y ∈ pending) :
    ∀ x ∈ g.reach marked pending, ∀ y, LeadsTo g.triples x y → y ∈ g.reach marked pending := by
  fun_induction reach g marked pending with
  | case1 marked =>
    intro x hx y hxy
    exact (hinv x hx y hxy).resolve_right List.not_mem_nil
  | case2 marked z pending hz ih =>
    refine ih fun x hx y hxy => ?_
    rcases hinv x hx y hxy with hy | hy
    · exact .inl hy
    · rcases List.mem_cons.mp hy with rfl | hy
      · exact .inl hz
      · exact .inr hy
  | case3 marked z pending hz ih =>
    refine ih fun x hx y hxy => ?_
    rcases List.mem_cons.mp hx with rfl | hx
    · exact .inr (List.mem_append_left _ (h.mem_blankObjects.mpr hxy))
    · rcases hinv x hx y hxy with hy | hy
      · exact .inl (List.mem_cons_of_mem z hy)
      · rcases List.mem_cons.mp hy with rfl | hy
        · exact .inl List.mem_cons_self
        · exact .inr (List.mem_append_right _ hy)

/-- A walk marks what its starting nodes reach. -/
theorem Indexed.mem_reach_iff (h : g.Indexed) {pending : List Term} :
    y ∈ g.reach [] pending ↔ ∃ x ∈ pending, Reaches g.triples x y := by
  constructor
  · intro hy
    exact (reach_sound h hy).resolve_left List.not_mem_nil
  · rintro ⟨x, hx, hxy⟩
    have hclosed := reach_closed h [] pending fun _ hx => absurd hx List.not_mem_nil
    have hstart := (g.subset_reach [] pending).2 hx
    refine hxy.preserves (p := (· ∈ g.reach [] pending)) hstart fun t ht hsubject hblank => ?_
    exact hclosed t.subject hsubject t.object ⟨hblank, t, ht, rfl, rfl⟩

/-! ### Descriptions -/

theorem describe_ascending (g : Graph) (root : Term) : (g.describe root).Pairwise (· < ·) :=
  List.pairwise_map.mpr (g.log.entries_ascending.filter _)

theorem Indexed.mem_describe_iff (h : g.Indexed) {root : Term} {i : Nat} :
    i ∈ g.describe root ↔ ∃ t, g.get? i = some t ∧ Reaches g.triples root t.subject := by
  simp only [describe, List.mem_map, List.mem_filter, decide_eq_true_eq, h.mem_reach_iff,
    List.mem_singleton, exists_eq_left]
  constructor
  · rintro ⟨⟨j, t⟩, ⟨hmem, hreach⟩, rfl⟩
    exact ⟨t, mem_entries_iff.mp hmem, hreach⟩
  · rintro ⟨t, ht, hreach⟩
    exact ⟨(i, t), ⟨mem_entries_iff.mpr ht, hreach⟩, rfl⟩

/-- A node that leads to all subjects is described by all triples. -/
theorem describe_ofTriples {ts : List Triple} {root : Term}
    (h : ∀ t ∈ ts, Reaches ts root t.subject) :
    (ofTriples ts).describe root = List.range ts.length := by
  refine (describe_ascending _ root).eq_of_mem_iff List.pairwise_lt_range fun i => ?_
  rw [(indexed_ofTriples ts).mem_describe_iff, triples_ofTriples, get?_ofTriples, List.mem_range]
  constructor
  · rintro ⟨t, ht, -⟩
    exact (List.getElem?_eq_some_iff.mp ht).1
  · intro hi
    exact ⟨ts[i], List.getElem?_eq_getElem hi, h _ (List.getElem_mem hi)⟩

/-- A node is described by the triples about it and about each blank node that triples lead to
from it over blank nodes, and by no others: what is about another IRI is left out, wherever that
IRI is mentioned. -/
theorem describe_reached (ops : List Operation) (root : Term) :
    let g := run ∅ ops
    (g.describe root).Pairwise (· < ·) ∧
    (∀ i, i ∈ g.describe root ↔ ∃ t, g.get? i = some t ∧
      (t.subject = root ∨ t.subject.isBlank ∧ Reaches g.triples root t.subject)) ∧
    ∀ i t iri, g.get? i = some t → t.subject = .named iri → .named iri ≠ root →
      i ∉ g.describe root := by
  intro g
  have hg : g.Indexed := indexed_run ops
  refine ⟨g.describe_ascending root, fun i => ?_, fun i t iri ht hsubject hne hmem => ?_⟩
  · rw [hg.mem_describe_iff]
    refine exists_congr fun t => and_congr_right fun _ => ⟨fun hreach => ?_, ?_⟩
    · exact hreach.eq_or_isBlank.imp_right fun hblank => ⟨hblank, hreach⟩
    · rintro (rfl | ⟨-, hreach⟩)
      · exact .refl
      · exact hreach
  · obtain ⟨u, hu, hreach⟩ := hg.mem_describe_iff.mp hmem
    obtain rfl : t = u := Option.some.inj (ht.symm.trans hu)
    rw [hsubject] at hreach
    obtain hroot | hblank := hreach.eq_or_isBlank
    · exact hne hroot
    · cases hblank

end Graph

end ContextPolicy
