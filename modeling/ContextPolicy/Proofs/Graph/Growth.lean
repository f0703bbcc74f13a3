import ContextPolicy.Proofs.Graph.Earliest
import ContextPolicy.Proofs.Graph.Row

/-! Lists in a graph that gets more triples.

The earliest value of a cell counts, so what a lookup found it finds again in a graph that
extends the old one (`Extends`): new triples come behind the old ones (`extends_addAll`). A row
of cells is then a row for good (`Row.mono`), and a head that has come to the end of a list, or
back to one of its cells, comes there again (`Ends.list_mono`, `Ends.circular_mono`). Only a
node that lacked a value may get it. -/
namespace ContextPolicy.Graph

variable {g h : Graph} {head x y member : Term} {cells members : List Term}

/-- Whatever a lookup finds in the one graph, it finds in the other. -/
def Extends (g h : Graph) : Prop :=
  ∀ x q y, g.firstObject x q = some y → h.firstObject x q = some y

theorem extends_addAll (hg : g.Indexed) (ts : List Triple) : g.Extends (g.addAll ts) := by
  intro x q y hy
  rw [hg.firstObject_addAll, hy, Option.some_or]

theorem Row.mono (hrow : g.Row head cells members x) (hext : g.Extends h) :
    h.Row head cells members x where
  starts := hrow.starts
  linked := hrow.linked.imp fun a b hab => hext a Names.Rdf.rest b hab
  distinct := hrow.distinct
  members := hrow.members.imp fun a b hab => hext a Names.Rdf.first b hab

theorem Ends.list_mono (hends : g.Ends head (.ok members)) (hext : g.Extends h) :
    h.Ends head (.ok members) := by
  cases hends with
  | list hrow hnil => exact .list (hrow.mono hext) hnil

theorem Ends.circular_mono (hends : g.Ends head (.error (.circular x))) (hext : g.Extends h) :
    h.Ends head (.error (.circular x)) := by
  cases hends with
  | circular hrow hnil hx => exact .circular (hrow.mono hext) hnil hx

/-- A node with a first and a rest is not what is missing them. -/
theorem decode_ne_incomplete (hfirst : (g.firstObject x Names.Rdf.first).isSome)
    (hrest : (g.firstObject x Names.Rdf.rest).isSome) :
    g.decode head ≠ .error (.incomplete x) := by
  intro hfault
  obtain ⟨-, -, hlacks⟩ := decode_fault hfault
  obtain hnone | hnone := hlacks
  · rw [hnone] at hfirst
    cases hfirst
  · rw [hnone] at hrest
    cases hrest

/-- New triples change no list and no circle. They can only change what a head comes to where it
came to a node that lacks a first or a rest, and giving it both does change that. -/
theorem decode_addAll (ops : List Operation) (added : List Triple) (head : Term) :
    let g := run ∅ ops
    let h := g.addAll added
    (∀ members, g.decode head = .ok members → h.decode head = .ok members) ∧
    (∀ cell, g.decode head = .error (.circular cell) →
      h.decode head = .error (.circular cell)) ∧
    (h.decode head ≠ g.decode head → ∃ cell, g.decode head = .error (.incomplete cell)) ∧
    ∀ cell member rest, (h.addAll [⟨cell, Names.Rdf.first, member⟩,
      ⟨cell, Names.Rdf.rest, rest⟩]).decode head ≠ .error (.incomplete cell) := by
  intro g h
  have hg : g.Indexed := indexed_run ops
  have hext : g.Extends h := extends_addAll hg added
  have hlist : ∀ members, g.decode head = .ok members → h.decode head = .ok members := by
    intro members hok
    have hends : g.Ends head (.ok members) := hok ▸ ends_decode g head
    exact (hends.list_mono hext).decode_eq
  have hcircular : ∀ cell, g.decode head = .error (.circular cell) →
      h.decode head = .error (.circular cell) := by
    intro cell hfault
    have hends : g.Ends head (.error (.circular cell)) := hfault ▸ ends_decode g head
    exact (hends.circular_mono hext).decode_eq
  refine ⟨hlist, hcircular, fun hne => ?_, fun cell member rest => ?_⟩
  · cases hold : g.decode head with
    | ok members => exact absurd ((hlist members hold).trans hold.symm) hne
    | error fault =>
      cases fault with
      | circular cell => exact absurd ((hcircular cell hold).trans hold.symm) hne
      | incomplete cell => exact ⟨cell, rfl⟩
  · have hh : h.Indexed := hg.addAll added
    refine decode_ne_incomplete ?_ ?_
    · rw [hh.firstObject_addAll, earliest_cons_of_eq rfl rfl, Option.isSome_or, Option.isSome_some,
        Bool.or_true]
    · have hdistinct : Names.Rdf.first ≠ Names.Rdf.rest := by decide
      rw [hh.firstObject_addAll, earliest_cons_of_ne fun _ => hdistinct,
        earliest_cons_of_eq rfl rfl, Option.isSome_or, Option.isSome_some, Bool.or_true]

/-- A list whose cell is given another rest, and a circle that is given an end. -/
theorem decode_addAll_newer :
    let a : Term := .blank "a"
    let b : Term := .blank "b"
    let ops : List Operation := [.ofTriples [⟨a, Names.Rdf.first, .plain "x"⟩,
      ⟨a, Names.Rdf.rest, Chain.nil⟩, ⟨b, Names.Rdf.first, .plain "y"⟩, ⟨b, Names.Rdf.rest, b⟩]]
    let h := (run ∅ ops).addAll [⟨a, Names.Rdf.rest, b⟩, ⟨b, Names.Rdf.rest, Chain.nil⟩]
    (run ∅ ops).decode a = .ok [.plain "x"] ∧ h.decode a = .ok [.plain "x"] ∧
      (run ∅ ops).decode b = .error (.circular b) ∧ h.decode b = .error (.circular b) := by
  intro a b ops h
  have hlist : (run ∅ ops).decode a = .ok [.plain "x"] := by decide +kernel
  have hcircular : (run ∅ ops).decode b = .error (.circular b) := by decide +kernel
  exact ⟨hlist, (decode_addAll ops _ a).1 _ hlist,
    hcircular, (decode_addAll ops _ b).2.1 b hcircular⟩

end ContextPolicy.Graph
