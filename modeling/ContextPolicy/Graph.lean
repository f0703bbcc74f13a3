import ContextPolicy.Graph.Index
import ContextPolicy.Graph.Log

/-! A graph: the log of its triples, and beside it the index that finds them by their
terms. Both change in the same operation, and `isConsistent` checks one against the other.
What a graph holds is its log; the index only makes lookups short. -/
namespace ContextPolicy

structure Graph where
  log : Log
  index : PatternIndex
deriving DecidableEq

namespace Graph

def empty : Graph :=
  ⟨∅, ∅⟩

instance : EmptyCollection Graph :=
  ⟨empty⟩

/-! ### What a graph holds -/

def nextIndex (g : Graph) : Nat :=
  g.log.nextIndex

def get? (g : Graph) (i : Nat) : Option Triple :=
  g.log.get? i

/-- The triples with their indices, in ascending order. -/
def entries (g : Graph) : List (Nat × Triple) :=
  g.log.entries

def triples (g : Graph) : List Triple :=
  g.log.triples

def size (g : Graph) : Nat :=
  g.log.size

def isEmpty (g : Graph) : Bool :=
  g.log.isEmpty

/-! ### Changes -/

/-- Stores a triple in both views, and answers with the index that it is stored under. -/
def push (g : Graph) (t : Triple) : Nat × Graph :=
  let index := g.index.add t g.nextIndex
  let (i, log) := g.log.push t
  (i, ⟨log, index⟩)

/-- The graph with a new triple. -/
def add (g : Graph) (t : Triple) : Graph :=
  (g.push t).2

def addAll (g : Graph) (ts : List Triple) : Graph :=
  ts.foldl add g

def ofTriples (ts : List Triple) : Graph :=
  addAll ∅ ts

/-- Takes the triple under an index out of both views. -/
def removeInPlace (g : Graph) (i : Nat) : Change NotFound Triple Graph :=
  match g.log.removeInPlace i with
  | (.ok t, log) => (.ok t, ⟨log, g.index.erase t i⟩)
  | (.error fault, log) => (.error fault, { g with log })

/-- Takes triples out one after the other, up to the first index that is refused. -/
def removeEachInPlace (g : Graph) : List Nat → Change NotFound (List Triple) Graph
  | [] => (.ok [], g)
  | i :: rest =>
    match g.removeInPlace i with
    | (.error fault, g) => (.error fault, g)
    | (.ok t, g) =>
      let (ts, g) := g.removeEachInPlace rest
      (ts.map (t :: ·), g)

/-- The first index that nothing is stored under, or that stands in the list before. -/
def firstAbsent? (g : Graph) (before : List Nat) : List Nat → Option Nat
  | [] => none
  | i :: rest =>
    if (g.get? i).isNone || i ∈ before then some i else g.firstAbsent? (i :: before) rest

/-- The order in which several indices are taken out: ascending, each once. -/
def sortedIndices (indices : List Nat) : List Nat :=
  (Std.ExtTreeSet.ofList indices : IndexSet).toList

/-- Takes the triples under all of the indices out, or none of them: nothing is removed before
all of the indices are looked up. -/
def removeAllInPlace (g : Graph) (indices : List Nat) : Change NotFound (List Triple) Graph :=
  match g.firstAbsent? [] indices with
  | some i => (.error ⟨i⟩, g)
  | none => g.removeEachInPlace (sortedIndices indices)

/-! Each removal with the graph that it leaves, where it is not refused. -/

def remove (g : Graph) (i : Nat) : Except NotFound (Triple × Graph) :=
  (g.removeInPlace i).settled

def removeEach (g : Graph) (indices : List Nat) : Except NotFound (List Triple × Graph) :=
  (g.removeEachInPlace indices).settled

def removeAll (g : Graph) (indices : List Nat) : Except NotFound (List Triple × Graph) :=
  (g.removeAllInPlace indices).settled

/-! ### Lookups -/

/-- The triples that match a pattern with their indices, in ascending order. -/
def findEntries (g : Graph) (p : Pattern) : List (Nat × Triple) :=
  (g.index.find p).filterMap fun i => (g.get? i).map (i, ·)

def find (g : Graph) (p : Pattern) : List Triple :=
  (g.findEntries p).map (·.2)

/-- The object of the earliest triple with a subject and a predicate. -/
def firstObject (g : Graph) (subject : Term) (predicate : String) : Option Term :=
  ((g.index.find ⟨some subject, some (.named predicate), none⟩).head?.bind g.get?).map (·.object)

/-- The labels of the blank nodes, each once and sorted. -/
def blankLabels (g : Graph) : List String :=
  (Std.ExtTreeSet.ofList
    (g.triples.flatMap fun t => [t.subject, t.object].filterMap Term.label?)).toList

/-- Whether log and index hold the same triples under the same indices. -/
def isConsistent (g : Graph) : Bool :=
  let indexed := g.index.find .any
  indexed.length == g.size &&
    (g.entries.zip indexed).all fun ((i, t), j) => i == j && g.index.contains t i

/-! ### Walks

A walk over a graph marks the nodes that it has entered. It can read on from a node only
if the index knows the node as a subject, so each step leaves fewer subjects unmarked. -/

/-- How many subjects are not marked. -/
def unmarked (g : Graph) (marked : List Term) : Nat :=
  g.index.subjectTerms.countP fun x => x ∉ marked

theorem unmarked_lt {g : Graph} {x : Term} {marked : List Term}
    (hx : x ∈ g.index.subjectTerms) (hm : x ∉ marked) :
    g.unmarked (x :: marked) < g.unmarked marked := by
  obtain ⟨before, after, hsplit⟩ := List.append_of_mem hx
  have hle (ys : List Term) :
      ys.countP (fun y => y ∉ x :: marked) ≤ ys.countP (fun y => y ∉ marked) :=
    List.countP_mono_left fun y _ h => by simp_all
  have hbefore := hle before
  have hafter := hle after
  have hx' : decide (x ∉ x :: marked) = false := by simp
  have hm' : decide (x ∉ marked) = true := by simp [hm]
  simp only [unmarked, hsplit, List.countP_append, List.countP_cons, hx', hm']
  simp only [Bool.false_eq_true, ↓reduceIte]
  omega

theorem mem_subjectTerms_of_firstObject {g : Graph} {x y : Term} {predicate : String}
    (h : g.firstObject x predicate = some y) : x ∈ g.index.subjectTerms := by
  obtain ⟨t, ht, -⟩ := Option.map_eq_some_iff.mp h
  obtain ⟨i, hi, -⟩ := Option.bind_eq_some_iff.mp ht
  exact PatternIndex.mem_subjectTerms_of_find (List.mem_of_mem_head? hi)

theorem mem_subjectTerms_of_find {g : Graph} {x : Term} {t : Triple} {p o : Option Term}
    (h : t ∈ g.find ⟨some x, p, o⟩) : x ∈ g.index.subjectTerms := by
  obtain ⟨⟨i, u⟩, hu, -⟩ := List.mem_map.mp h
  obtain ⟨j, hj, -⟩ := List.mem_filterMap.mp hu
  exact PatternIndex.mem_subjectTerms_of_find hj

end Graph

end ContextPolicy
