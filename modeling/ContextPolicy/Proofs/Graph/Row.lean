import Mathlib.Data.List.Chain
import ContextPolicy.Proofs.Graph.Chain
import ContextPolicy.Proofs.Graph.Lookup

/-! How the walk over a list ends.

From the head the rests lead from cell to cell. `Row` is a part of this that has been gone
through: distinct cells one behind the other, all with a member, and the node that the last of
them leads to. What that node is decides how the walk ends (`Ends`): it is the end of the list,
or one of the cells, or lacks what a cell has.

The reader holds such a row all along, so its answer is an ending (`ends_membersFrom`), and to
go along a row is all that it does (`Row.membersFrom_eq`), so no other ending is one. A row is
followed up to the first `rdf:nil` only. A graph may give that node a member and a rest as well,
and links alone would then lead on behind the end (`members_behind_nil`). -/
namespace ContextPolicy.Graph

variable {g : Graph} {head x y member : Term} {cells members : List Term}

/-- The second node is the member of the first. -/
def FirstOf (g : Graph) (x y : Term) : Prop :=
  g.firstObject x Names.Rdf.first = some y

/-- Distinct cells in a row, the head in front, with their members, and the node behind them. -/
structure Row (g : Graph) (head : Term) (cells members : List Term) (x : Term) : Prop where
  starts : (cells ++ [x]).head? = some head
  linked : (cells ++ [x]).IsChain g.RestOf
  distinct : cells.Nodup
  members : List.Forall₂ g.FirstOf cells members

/-- What a head comes to. -/
inductive Ends (g : Graph) (head : Term) : Except ListFault (List Term) → Prop
  | list {cells members : List Term} (hrow : g.Row head cells members Chain.nil)
    (hnil : Chain.nil ∉ cells) : Ends g head (.ok members)
  | circular {cells members : List Term} {x : Term} (hrow : g.Row head cells members x)
    (hnil : Chain.nil ∉ cells) (hx : x ∈ cells) : Ends g head (.error (.circular x))
  | incomplete {cells members : List Term} {x : Term} (hrow : g.Row head cells members x)
    (hnil : Chain.nil ∉ cells ++ [x]) (hx : x ∉ cells)
    (hlacks : g.firstObject x Names.Rdf.first = none ∨ g.firstObject x Names.Rdf.rest = none) :
    Ends g head (.error (.incomplete x))

/-! ### Along a row -/

/-- The rest of a cell begins a shorter row. -/
theorem Row.tail {c m : Term} (h : g.Row head (c :: cells) (m :: members) x) :
    c = head ∧ c ∉ cells ∧ g.FirstOf c m ∧ ∃ y, g.RestOf c y ∧ g.Row y cells members x := by
  obtain ⟨hnew, hdistinct⟩ := List.nodup_cons.mp h.distinct
  obtain ⟨hfirst, hmembers⟩ := List.forall₂_cons.mp h.members
  obtain ⟨hnext, hlinked⟩ := List.isChain_cons.mp h.linked
  obtain ⟨y, hy⟩ : ∃ y, (cells ++ [x]).head? = some y := by
    cases cells with
    | nil => exact ⟨x, rfl⟩
    | cons d rest => exact ⟨d, rfl⟩
  exact ⟨Option.some.inj h.starts, hnew, hfirst, y, hnext y hy, hy, hlinked, hdistinct, hmembers⟩

/-- The reader goes along a row that it has not met. -/
theorem Row.membersFrom_eq {marked : List Term} (h : g.Row head cells members x)
    (hnil : Chain.nil ∉ cells) (hnew : ∀ c ∈ cells, c ∉ marked) :
    g.membersFrom marked head =
      (g.membersFrom (cells.reverse ++ marked) x).map (members ++ ·) := by
  induction cells generalizing head members marked with
  | nil =>
    obtain rfl := List.forall₂_nil_left_iff.mp h.members
    obtain rfl := Option.some.inj h.starts
    rw [List.reverse_nil, List.nil_append]
    cases g.membersFrom marked x <;> rfl
  | cons c rest ih =>
    obtain ⟨m, ms, -, -, rfl⟩ := List.forall₂_cons_left_iff.mp h.members
    obtain ⟨rfl, hc, hfirst, y, hrest, hrow⟩ := h.tail
    rw [List.mem_cons, not_or] at hnil
    have hmarked : ∀ d ∈ rest, d ∉ c :: marked := by
      intro d hd hmem
      rcases List.mem_cons.mp hmem with rfl | hmem
      · exact hc hd
      · exact hnew d (List.mem_cons_of_mem c hd) hmem
    rw [membersFrom_cell (Ne.symm hnil.1) (hnew c List.mem_cons_self) hfirst hrest,
      ih hrow hnil.2 hmarked, List.reverse_cons, List.append_assoc, List.singleton_append]
    cases g.membersFrom (rest.reverse ++ c :: marked) x <;> rfl

/-- What is said of an ending is what the reader answers. -/
theorem Ends.decode_eq {o : Except ListFault (List Term)} (h : g.Ends head o) :
    g.decode head = o := by
  have hrow : ∀ {cells members x}, g.Row head cells members x → Chain.nil ∉ cells →
      g.decode head = (g.membersFrom cells.reverse x).map (members ++ ·) := by
    intro cells members x hrow hnil
    have hnew : ∀ c ∈ cells, c ∉ [] := fun c _ => List.not_mem_nil
    have hall := hrow.membersFrom_eq hnil hnew
    rwa [List.append_nil] at hall
  cases h with
  | @list cells members h hnil =>
    rw [hrow h hnil, membersFrom_nil]
    exact congrArg Except.ok (List.append_nil members)
  | circular h hnil hx =>
    have hcell : _ ≠ Chain.nil := fun heq => hnil (heq ▸ hx)
    rw [hrow h hnil, Graph.membersFrom_eq, if_neg hcell, if_pos (List.mem_reverse.mpr hx)]
    rfl
  | @incomplete cells members x h hnil hx hlacks =>
    rw [List.mem_append, List.mem_singleton, not_or] at hnil
    rw [hrow h hnil.1, Graph.membersFrom_eq, if_neg (Ne.symm hnil.2),
      if_neg (mt List.mem_reverse.mp hx)]
    obtain hfirst | hrest := hlacks
    · rw [hfirst]
      rfl
    · rw [hrest]
      cases g.firstObject x Names.Rdf.first <;> rfl

/-! ### Every walk ends -/

theorem Row.start (g : Graph) (head : Term) : g.Row head [] [] head :=
  ⟨rfl, .singleton head, .nil, .nil⟩

/-- A row with one more cell. -/
theorem Row.snoc (h : g.Row head cells members x) (hx : x ∉ cells) (hfirst : g.FirstOf x member)
    (hrest : g.RestOf x y) : g.Row head (cells ++ [x]) (members ++ [member]) y where
  starts := by
    rw [List.head?_append, h.starts]
    rfl
  linked := by
    rw [List.append_assoc, List.singleton_append, List.isChain_append_cons_cons]
    exact ⟨h.linked, hrest, .singleton y⟩
  distinct := by
    rw [List.nodup_append_comm]
    exact List.nodup_cons.mpr ⟨hx, h.distinct⟩
  members := List.rel_append h.members (.cons hfirst .nil)

/-- The reader holds the cells of a row, the last one in front, and comes to an ending. -/
theorem ends_membersFrom {marked : List Term} (h : g.Row head marked.reverse members x)
    (hnil : Chain.nil ∉ marked) : g.Ends head ((g.membersFrom marked x).map (members ++ ·)) := by
  -- Only complete cells are marked, each in front of the one before, so the marks are the row.
  fun_induction Graph.membersFrom g marked x generalizing members with
  | case1 marked =>
    show g.Ends head (.ok (members ++ []))
    rw [List.append_nil]
    exact .list h (mt List.mem_reverse.mp hnil)
  | case2 marked x _ hx =>
    exact .circular h (mt List.mem_reverse.mp hnil) (List.mem_reverse.mpr hx)
  | case3 marked x hcell hx hfirst =>
    refine .incomplete h ?_ (mt List.mem_reverse.mp hx) (.inl hfirst)
    simpa [Ne.symm hcell] using hnil
  | case4 marked x hcell hx _ _ hrest =>
    refine .incomplete h ?_ (mt List.mem_reverse.mp hx) (.inr hrest)
    simpa [Ne.symm hcell] using hnil
  | case5 marked x hcell hx member hfirst y hrest ih =>
    have hrow : g.Row head (x :: marked).reverse (members ++ [member]) y := by
      rw [List.reverse_cons]
      exact h.snoc (mt List.mem_reverse.mp hx) hfirst hrest
    have hends := ih hrow (by simpa [Ne.symm hcell] using hnil)
    cases hmembers : g.membersFrom (x :: marked) y with
    | error fault => rwa [hmembers] at hends
    | ok ms =>
      rw [hmembers] at hends
      show g.Ends head (.ok (members ++ member :: ms))
      rwa [List.append_cons]

theorem ends_decode (g : Graph) (head : Term) : g.Ends head (g.decode head) := by
  have hrow : g.Row head [].reverse [] head := Row.start g head
  have hends := ends_membersFrom hrow List.not_mem_nil
  rw [decode]
  cases hmembers : g.membersFrom [] head with
  | error fault => rwa [hmembers] at hends
  | ok ms => rwa [hmembers] at hends

/-- Each head comes to one ending, which the reader gives: the members of a row that leads to
`rdf:nil`, the cell of a row that the row leads back to, or the node behind a row that lacks a
value. Of several values the earliest counts. -/
theorem decode_classifies (ops : List Operation) :
    (run ∅ ops).decode Chain.nil = .ok [] ∧
    (∀ head o, (run ∅ ops).decode head = o ↔ (run ∅ ops).Ends head o) ∧
    (∀ head, ∃! o, (run ∅ ops).Ends head o) ∧
    ∀ x q, (run ∅ ops).firstObject x q =
      ((run ∅ ops).entries.find? fun e => e.2.subject == x && e.2.predicate == q).map
        (·.2.object) := by
  refine ⟨membersFrom_nil _ _, fun head o => ⟨?_, Ends.decode_eq⟩, fun head => ?_,
    (indexed_run ops).firstObject_eq⟩
  · rintro rfl
    exact ends_decode _ head
  · exact ⟨_, ends_decode _ head, fun o h => h.decode_eq.symm⟩

/-- Links alone do not tell where a list ends: three distinct cells in a row with members, and
`rdf:nil` behind them, where the list is over at the second one, for this is `rdf:nil` too. -/
theorem members_behind_nil :
    let a : Term := .blank "a"
    let c : Term := .blank "c"
    let g := run ∅ [.ofTriples [⟨a, Names.Rdf.first, .plain "x"⟩, ⟨a, Names.Rdf.rest, Chain.nil⟩,
      ⟨Chain.nil, Names.Rdf.first, .plain "y"⟩, ⟨Chain.nil, Names.Rdf.rest, c⟩,
      ⟨c, Names.Rdf.first, .plain "z"⟩, ⟨c, Names.Rdf.rest, Chain.nil⟩]]
    g.decode a = .ok [.plain "x"] ∧
      ¬∀ members, g.decode a = .ok members ↔ ∃ cells, g.Row a cells members Chain.nil := by
  intro a c g
  have hdecode : g.decode a = .ok [.plain "x"] := by decide +kernel
  have hrests : g.RestOf a Chain.nil ∧ g.RestOf Chain.nil c ∧ g.RestOf c Chain.nil := by
    unfold RestOf
    decide +kernel
  have hfirsts : g.FirstOf a (.plain "x") ∧ g.FirstOf Chain.nil (.plain "y") ∧
      g.FirstOf c (.plain "z") := by
    unfold FirstOf
    decide +kernel
  have hrow : g.Row a [a, Chain.nil, c] [.plain "x", .plain "y", .plain "z"] Chain.nil :=
    ⟨rfl, .cons_cons hrests.1 (.cons_cons hrests.2.1 (.cons_cons hrests.2.2 (.singleton _))),
      by decide, .cons hfirsts.1 (.cons hfirsts.2.1 (.cons hfirsts.2.2 .nil))⟩
  refine ⟨hdecode, fun h => ?_⟩
  have hlong := (h _).mpr ⟨_, hrow⟩
  rw [hdecode] at hlong
  cases hlong

end ContextPolicy.Graph
