import ContextPolicy.Graph

/-! The description of a node: the triples that have it as their subject, and those of
each blank node that they lead to. A blank node has no name outside a graph, so what is
said of it belongs to whatever mentions it; an IRI speaks for itself. -/
namespace ContextPolicy.Graph

/-- The blank nodes among the objects of a subject. -/
def blankObjects (g : Graph) (x : Term) : List Term :=
  ((g.find ⟨some x, none, none⟩).map (·.object)).filter Term.isBlank

theorem mem_subjectTerms_of_blankObjects {g : Graph} {x : Term} (h : g.blankObjects x ≠ []) :
    x ∈ g.index.subjectTerms := by
  obtain ⟨y, hy⟩ := List.exists_mem_of_ne_nil _ h
  obtain ⟨t, ht, -⟩ := List.mem_map.mp (List.mem_filter.mp hy).1
  exact mem_subjectTerms_of_find ht

/-! ### Links to follow

A walk follows every link to a blank node once, from the subject that it starts at when
that subject is marked. -/

/-- The links to blank nodes that are to be followed from a subject. -/
def linksToFollow (g : Graph) (marked : List Term) (x : Term) : Nat :=
  if x ∈ marked then 0 else (g.blankObjects x).length

/-- How many links are to be followed from several subjects. -/
def linksFrom (g : Graph) (marked : List Term) : List Term → Nat
  | [] => 0
  | x :: rest => g.linksToFollow marked x + g.linksFrom marked rest

/-- How many links to blank nodes start at subjects that are not marked. -/
def unmarkedLinks (g : Graph) (marked : List Term) : Nat :=
  g.linksFrom marked g.index.subjectTerms

theorem linksToFollow_cons_le (g : Graph) (x : Term) (marked : List Term) (y : Term) :
    g.linksToFollow (x :: marked) y ≤ g.linksToFollow marked y := by
  by_cases hy : y ∈ marked <;> by_cases he : y = x <;> simp [linksToFollow, hy, he]

theorem linksFrom_cons_le (g : Graph) (x : Term) (marked ys : List Term) :
    g.linksFrom (x :: marked) ys ≤ g.linksFrom marked ys := by
  induction ys with
  | nil => exact Nat.le_refl 0
  | cons y ys ih => exact Nat.add_le_add (g.linksToFollow_cons_le x marked y) ih

theorem linksFrom_append (g : Graph) (marked xs ys : List Term) :
    g.linksFrom marked (xs ++ ys) = g.linksFrom marked xs + g.linksFrom marked ys := by
  induction xs with
  | nil => exact (Nat.zero_add _).symm
  | cons x xs ih =>
    rw [List.cons_append, linksFrom, ih, linksFrom, Nat.add_assoc]

/-- To mark a node is to follow its links. -/
theorem unmarkedLinks_cons_le (g : Graph) {x : Term} {marked : List Term} (hx : x ∉ marked) :
    (g.blankObjects x).length + g.unmarkedLinks (x :: marked) ≤ g.unmarkedLinks marked := by
  by_cases hb : g.blankObjects x = []
  · rw [hb, List.length_nil, Nat.zero_add]
    exact g.linksFrom_cons_le x marked _
  · obtain ⟨before, after, hsplit⟩ := List.append_of_mem (mem_subjectTerms_of_blankObjects hb)
    have hbefore := g.linksFrom_cons_le x marked before
    have hafter := g.linksFrom_cons_le x marked after
    have hself : g.linksToFollow (x :: marked) x = 0 := by simp [linksToFollow]
    have hlinks : g.linksToFollow marked x = (g.blankObjects x).length := if_neg hx
    rw [unmarkedLinks, unmarkedLinks, hsplit, linksFrom_append, linksFrom_append, linksFrom,
      linksFrom, hself, hlinks]
    omega

/-! ### Walks -/

/-- The marked nodes, the pending ones, and the blank nodes that these lead to. -/
def reach (g : Graph) (marked : List Term) : List Term → List Term
  | [] => marked
  | x :: pending =>
    if x ∈ marked then g.reach marked pending
    else g.reach (x :: marked) (g.blankObjects x ++ pending)
termination_by pending => g.unmarkedLinks marked + pending.length
decreasing_by
  · simp
  · have hlinks := g.unmarkedLinks_cons_le ‹x ∉ marked›
    simp only [List.length_append, List.length_cons]
    omega

/-- The indices of the triples that describe a node, ascending. -/
def describe (g : Graph) (root : Term) : List Nat :=
  let nodes := g.reach [] [root]
  (g.entries.filter fun entry => entry.2.subject ∈ nodes).map (·.1)

end ContextPolicy.Graph
