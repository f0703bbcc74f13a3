import Mathlib.Logic.Relation
import ContextPolicy.Graph.Chain
import ContextPolicy.Proofs.Outcome

/-! What the reader of lists finds.

`Lists` says when a node heads a list, without a word about walks: it is `rdf:nil`, or a
cell whose first member is followed by a list. A node heads at most one list
(`Lists.unique`), so a cell cannot come back among its own rest, which would be a shorter
list under the same head. That is why the walk, which refuses a cell that it meets again,
refuses none of these, and it accepts nothing else (`decode_eq_ok_iff`).

What it refuses, it refuses for a reason that is in the graph: the cell that a fault names
follows from the head over the rests of cells, and it is one of its own rests, or lacks a
value that a cell has (`decode_fault`). -/
namespace ContextPolicy.Graph

variable {g : Graph}

/-- The node heads the list of the members. -/
inductive Lists (g : Graph) : Term → List Term → Prop
  | nil : Lists g Chain.nil []
  | cons {cell member rest : Term} {members : List Term} (hcell : cell ≠ Chain.nil)
      (hfirst : g.firstObject cell Names.Rdf.first = some member)
      (hrest : g.firstObject cell Names.Rdf.rest = some rest) (htail : Lists g rest members) :
      Lists g cell (member :: members)

/-- A node heads one list at most. -/
theorem Lists.unique {x : Term} {ms ns : List Term} (h : g.Lists x ms) (h' : g.Lists x ns) :
    ms = ns := by
  induction h generalizing ns with
  | nil =>
    cases h' with
    | nil => rfl
    | cons hcell _ _ _ => exact absurd rfl hcell
  | cons hcell hfirst hrest _ ih =>
    cases h' with
    | nil => exact absurd rfl hcell
    | cons _ hfirst' hrest' htail' =>
      rw [hfirst, Option.some.injEq] at hfirst'
      rw [hrest, Option.some.injEq] at hrest'
      subst hfirst' hrest'
      rw [ih htail']

/-- One step of the walk. -/
theorem membersFrom_eq (g : Graph) (marked : List Term) (x : Term) : g.membersFrom marked x =
    if x = Chain.nil then .ok []
    else if x ∈ marked then .error (.circular x)
    else match g.firstObject x Names.Rdf.first, g.firstObject x Names.Rdf.rest with
      | some member, some rest => (g.membersFrom (x :: marked) rest).map (member :: ·)
      | _, _ => .error (.incomplete x) := by
  rw [membersFrom]
  by_cases hcell : x = Chain.nil
  · rw [if_pos hcell, if_pos hcell]
  · by_cases hmarked : x ∈ marked
    · rw [if_neg hcell, if_neg hcell, dif_pos hmarked, if_pos hmarked]
    · rw [if_neg hcell, if_neg hcell, dif_neg hmarked, if_neg hmarked]
      split
      · next hfirst => rw [hfirst]
      · next member hfirst =>
        rw [hfirst]
        cases g.firstObject x Names.Rdf.rest <;> rfl

theorem membersFrom_nil (g : Graph) (marked : List Term) :
    g.membersFrom marked Chain.nil = .ok [] := by
  rw [membersFrom_eq, if_pos rfl]

theorem membersFrom_cell {marked : List Term} {cell member rest : Term}
    (hcell : cell ≠ Chain.nil) (hmarked : cell ∉ marked)
    (hfirst : g.firstObject cell Names.Rdf.first = some member)
    (hrest : g.firstObject cell Names.Rdf.rest = some rest) :
    g.membersFrom marked cell = (g.membersFrom (cell :: marked) rest).map (member :: ·) := by
  rw [membersFrom_eq, if_neg hcell, if_neg hmarked, hfirst, hrest]

/-- The walk gets to the end of a list if every cell behind it heads a longer one. -/
theorem Lists.membersFrom {x : Term} {ms marked : List Term} (h : g.Lists x ms)
    (hmarked : ∀ y ∈ marked, ∃ ns, g.Lists y ns ∧ ms.length < ns.length) :
    g.membersFrom marked x = .ok ms := by
  induction h generalizing marked with
  | nil => exact g.membersFrom_nil marked
  | @cons cell member rest members hcell hfirst hrest htail ih =>
    have hself : g.Lists cell (member :: members) := .cons hcell hfirst hrest htail
    have hnew : cell ∉ marked := by
      intro hmem
      obtain ⟨ns, hns, hlt⟩ := hmarked cell hmem
      rw [hself.unique hns] at hlt
      exact Nat.lt_irrefl _ hlt
    rw [membersFrom_cell hcell hnew hfirst hrest, ih]
    · rfl
    · intro y hy
      rcases List.mem_cons.mp hy with rfl | hy
      · exact ⟨_, hself, Nat.lt_succ_self _⟩
      · obtain ⟨ns, hns, hlt⟩ := hmarked y hy
        exact ⟨ns, hns, Nat.lt_of_succ_lt hlt⟩

theorem Lists.decode {x : Term} {ms : List Term} (h : g.Lists x ms) : g.decode x = .ok ms :=
  h.membersFrom fun _ hy => absurd hy List.not_mem_nil

/-- Whatever was met before, the walk gets to the end of lists only. -/
theorem lists_of_membersFrom {marked : List Term} {x : Term} {ms : List Term}
    (h : g.membersFrom marked x = .ok ms) : g.Lists x ms := by
  fun_induction Graph.membersFrom g marked x generalizing ms with
  | case1 =>
    obtain rfl := Except.ok.inj h
    exact .nil
  | case2 | case3 | case4 => cases h
  | case5 marked x hcell _ member hfirst rest hrest ih =>
    obtain ⟨members, hmembers, rfl⟩ := map_eq_ok h
    exact .cons hcell hfirst hrest (ih hmembers)

theorem decode_eq_ok_iff {x : Term} {ms : List Term} : g.decode x = .ok ms ↔ g.Lists x ms :=
  ⟨lists_of_membersFrom, Lists.decode⟩

/-! ### What is refused -/

/-- The second node is what the first one has for its rest. -/
def RestOf (g : Graph) (x y : Term) : Prop :=
  g.firstObject x Names.Rdf.rest = some y

/-- What a fault says of its cell. -/
def Warrants (g : Graph) : ListFault → Prop
  | .circular cell => Relation.TransGen g.RestOf cell cell
  | .incomplete cell => cell ≠ Chain.nil ∧
      (g.firstObject cell Names.Rdf.first = none ∨ g.firstObject cell Names.Rdf.rest = none)

theorem membersFrom_fault {marked : List Term} {x : Term} {fault : ListFault}
    (h : g.membersFrom marked x = .error fault)
    (hmarked : ∀ y ∈ marked, Relation.TransGen g.RestOf y x) :
    Relation.ReflTransGen g.RestOf x fault.cell ∧ g.Warrants fault := by
  fun_induction Graph.membersFrom g marked x with
  | case1 => cases h
  | case2 marked x _ hmem =>
    cases h
    exact ⟨.refl, hmarked x hmem⟩
  | case3 marked x hcell _ hfirst =>
    cases h
    exact ⟨.refl, hcell, .inl hfirst⟩
  | case4 marked x hcell _ _ _ hrest =>
    cases h
    exact ⟨.refl, hcell, .inr hrest⟩
  | case5 marked x _ _ _ _ rest hrest ih =>
    have hstep : g.RestOf x rest := hrest
    have htail := ih (eq_error_of_map h) fun y hy => by
      rcases List.mem_cons.mp hy with rfl | hy
      · exact .single hstep
      · exact (hmarked y hy).tail hstep
    exact ⟨.head hstep htail.1, htail.2⟩

/-- A fault is about a cell behind the head, and true of it. -/
theorem decode_fault {x : Term} {fault : ListFault} (h : g.decode x = .error fault) :
    Relation.ReflTransGen g.RestOf x fault.cell ∧ g.Warrants fault :=
  membersFrom_fault h fun _ hy => absurd hy List.not_mem_nil

end ContextPolicy.Graph
