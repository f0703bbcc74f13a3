import Std.Data.ExtTreeMap
import Std.Data.ExtTreeSet
import ContextPolicy.Triple

/-! An index over the triples of a log: for each position, the set of indices under which
each term stands there. A lookup walks the smallest set of the bound positions and probes
the others. -/
namespace ContextPolicy

/-- A set of indices. -/
abbrev IndexSet := Std.ExtTreeSet Nat

/-- For each term, the indices of the triples that hold it in one position. -/
abbrev Postings := Std.ExtTreeMap Term IndexSet

namespace Postings

def indices (p : Postings) (x : Term) : IndexSet :=
  p[x]?.getD ∅

def add (p : Postings) (x : Term) (i : Nat) : Postings :=
  p.alter x fun set => some ((set.getD ∅).insert i)

/-- A term goes with the last of its indices. -/
def erase (p : Postings) (x : Term) (i : Nat) : Postings :=
  p.alter x fun set => set.bind fun s => if (s.erase i).isEmpty then none else some (s.erase i)

end Postings

/-- The terms that a triple is asked to have, where any. -/
structure Pattern where
  subject : Option Term
  predicate : Option Term
  object : Option Term
deriving DecidableEq, Repr

namespace Pattern

def any : Pattern :=
  ⟨none, none, none⟩

def term (p : Pattern) : Position → Option Term
  | .subject => p.subject
  | .predicate => p.predicate
  | .object => p.object

/-- Whether a triple has every term that the pattern asks for. -/
def accepts (p : Pattern) (t : Triple) : Bool :=
  Position.all.all fun pos => (p.term pos).all (· == t.term pos)

end Pattern

structure PatternIndex where
  subjects : Postings
  predicates : Postings
  objects : Postings
deriving DecidableEq

namespace PatternIndex

def empty : PatternIndex :=
  ⟨∅, ∅, ∅⟩

instance : EmptyCollection PatternIndex :=
  ⟨empty⟩

def postings (x : PatternIndex) : Position → Postings
  | .subject => x.subjects
  | .predicate => x.predicates
  | .object => x.objects

def add (x : PatternIndex) (t : Triple) (i : Nat) : PatternIndex :=
  ⟨x.subjects.add (t.term .subject) i, x.predicates.add (t.term .predicate) i,
    x.objects.add (t.term .object) i⟩

def erase (x : PatternIndex) (t : Triple) (i : Nat) : PatternIndex :=
  ⟨x.subjects.erase (t.term .subject) i, x.predicates.erase (t.term .predicate) i,
    x.objects.erase (t.term .object) i⟩

/-- Whether a triple is posted under an index in all three positions. -/
def contains (x : PatternIndex) (t : Triple) (i : Nat) : Bool :=
  Position.all.all fun pos => ((x.postings pos).indices (t.term pos)).contains i

/-- The distinct terms in subject position. -/
def subjectTerms (x : PatternIndex) : List Term :=
  x.subjects.keys

/-- Every index, ascending. -/
def all (x : PatternIndex) : List Nat :=
  (x.subjects.toList.foldl (fun found entry => found.union entry.2) (∅ : IndexSet)).toList

/-- What is posted for each bound term of a pattern, nothing for an unknown one. -/
def lookups (x : PatternIndex) (p : Pattern) : List (Option IndexSet) :=
  Position.all.filterMap fun pos => (p.term pos).map ((x.postings pos)[·]?)

/-- The smaller of two sets, the first of two that are equally large. -/
def smaller (a b : IndexSet) : IndexSet :=
  if b.size < a.size then b else a

/-- The indices in all of the sets, ascending, by way of the smallest one. -/
def intersect : List IndexSet → List Nat
  | [] => []
  | first :: others =>
    (others.foldl smaller first).toList.filter fun i =>
      (first :: others).all (·.contains i)

/-- The indices of the triples that match a pattern, ascending. -/
def find (x : PatternIndex) (p : Pattern) : List Nat :=
  match (x.lookups p).mapM id with
  | none => []
  | some [] => x.all
  | some sets => intersect sets

/-- Nothing is found for a subject that no triple has. -/
theorem mem_subjectTerms_of_find {x : PatternIndex} {s : Term} {p o : Option Term} {i : Nat}
    (h : i ∈ x.find ⟨some s, p, o⟩) : s ∈ x.subjectTerms := by
  refine Decidable.byContradiction fun hs => ?_
  have hnone : x.subjects[s]? = none := by
    simpa [subjectTerms, Std.ExtTreeMap.mem_keys] using hs
  simp [find, lookups, Position.all, Pattern.term, postings, hnone] at h

end PatternIndex

end ContextPolicy
