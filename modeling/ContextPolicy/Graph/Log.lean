import Std.Data.ExtTreeMap
import ContextPolicy.Change
import ContextPolicy.Triple

/-! Triples in the order of their insertion. A log stores each triple under the index that its
counter shows, and the counter only goes up: no index is given out twice, and a removed triple
leaves its index empty. What a log holds is read off `get?` and, in ascending order of the
indices, `entries`. -/
namespace ContextPolicy

/-- No triple is stored under the index. -/
structure NotFound where
  index : Nat
deriving DecidableEq, Repr

def NotFound.message (e : NotFound) : String :=
  "no triple is stored under index " ++ toString e.index

structure Log where
  /-- The index that the next triple is stored under. -/
  nextIndex : Nat
  stored : Std.ExtTreeMap Nat Triple
deriving DecidableEq

namespace Log

def empty : Log :=
  ⟨0, ∅⟩

instance : EmptyCollection Log :=
  ⟨empty⟩

def get? (l : Log) (i : Nat) : Option Triple :=
  l.stored[i]?

def contains (l : Log) (i : Nat) : Bool :=
  l.stored.contains i

/-- Stores a triple, and answers with the index that it is stored under. -/
def push (l : Log) (t : Triple) : Nat × Log :=
  (l.nextIndex, ⟨l.nextIndex + 1, l.stored.insert l.nextIndex t⟩)

/-- The log with a new triple. -/
def add (l : Log) (t : Triple) : Log :=
  (l.push t).2

def erase (l : Log) (i : Nat) : Log :=
  { l with stored := l.stored.erase i }

/-- Takes the triple out that is stored under an index. -/
def removeInPlace (l : Log) (i : Nat) : Change NotFound Triple Log :=
  match l.get? i with
  | some t => (.ok t, l.erase i)
  | none => (.error ⟨i⟩, l.erase i)

def remove (l : Log) (i : Nat) : Except NotFound (Triple × Log) :=
  (l.removeInPlace i).settled

/-- The stored triples with their indices, in ascending order. -/
def entries (l : Log) : List (Nat × Triple) :=
  l.stored.toList

/-- The stored triples, in ascending order of their indices. -/
def triples (l : Log) : List Triple :=
  l.entries.map (·.2)

def size (l : Log) : Nat :=
  l.stored.size

def isEmpty (l : Log) : Bool :=
  l.stored.isEmpty

/-! ### What the operations do to the view -/

@[simp] theorem get?_empty (i : Nat) : (∅ : Log).get? i = none :=
  Std.ExtTreeMap.getElem?_empty

theorem get?_add (l : Log) (t : Triple) (i : Nat) :
    (l.add t).get? i = if i = l.nextIndex then some t else l.get? i := by
  show (l.stored.insert l.nextIndex t)[i]? = _
  rw [Std.ExtTreeMap.getElem?_insert]
  simp only [Std.compare_eq_iff_eq, eq_comm (a := i)]
  rfl

theorem get?_erase (l : Log) (i j : Nat) :
    (l.erase i).get? j = if i = j then none else l.get? j := by
  show (l.stored.erase i)[j]? = _
  rw [Std.ExtTreeMap.getElem?_erase]
  simp only [Std.compare_eq_iff_eq]
  rfl

@[simp] theorem nextIndex_add (l : Log) (t : Triple) : (l.add t).nextIndex = l.nextIndex + 1 :=
  rfl

@[simp] theorem nextIndex_erase (l : Log) (i : Nat) : (l.erase i).nextIndex = l.nextIndex :=
  rfl

theorem mem_entries_iff {l : Log} {i : Nat} {t : Triple} :
    (i, t) ∈ l.entries ↔ l.get? i = some t :=
  Std.ExtTreeMap.mem_toList_iff_getElem?_eq_some

theorem mem_triples_of_get? {l : Log} {i : Nat} {t : Triple} (h : l.get? i = some t) :
    t ∈ l.triples :=
  List.mem_map.mpr ⟨(i, t), mem_entries_iff.mpr h, rfl⟩

end Log

end ContextPolicy
