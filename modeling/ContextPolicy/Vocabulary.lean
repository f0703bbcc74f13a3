import Std.Data.ExtTreeMap
import ContextPolicy.Dimension
import ContextPolicy.Term
import ContextPolicy.Text.Lowercase

/-! The keywords of the dimensions that take any, and what they stand for. A keyword is
found in any case; it is kept in lower case. -/
namespace ContextPolicy

/-- What a keyword asks of a context: a property and its value. -/
structure Binding where
  predicate : String
  value : Term
deriving DecidableEq, Repr

/-- Keywords in lower case. -/
abbrev Keywords := Std.ExtTreeMap String Binding

structure Vocabulary where
  user : Keywords
  environment : Keywords
  device : Keywords
deriving DecidableEq

namespace Vocabulary

def empty : Vocabulary :=
  ⟨∅, ∅, ∅⟩

instance : EmptyCollection Vocabulary :=
  ⟨empty⟩

def entries (v : Vocabulary) : Dimension → Keywords
  | .user => v.user
  | .environment => v.environment
  | .device => v.device
  | .time | .outdoor => ∅

/-- The vocabulary with a keyword, if the dimension takes any. -/
def insert? (v : Vocabulary) (d : Dimension) (keyword : String) (b : Binding) :
    Option Vocabulary :=
  let lower := Text.lowercase keyword
  match d with
  | .user => some { v with user := v.user.insert lower b }
  | .environment => some { v with environment := v.environment.insert lower b }
  | .device => some { v with device := v.device.insert lower b }
  | .time | .outdoor => none

def lookup (v : Vocabulary) (d : Dimension) (keyword : String) : Option Binding :=
  (v.entries d)[Text.lowercase keyword]?

/-- The keywords of a dimension, sorted. -/
def keywords (v : Vocabulary) (d : Dimension) : List String :=
  (v.entries d).keys

/-- A later binding of a keyword replaces an earlier one; no other keyword changes. -/
theorem lookup_of_insert? {v w : Vocabulary} {d : Dimension} {keyword : String} {b : Binding}
    (h : v.insert? d keyword b = some w) (e : Dimension) (other : String) :
    w.lookup e other =
      if e = d ∧ Text.lowercase other = Text.lowercase keyword then some b else v.lookup e other := by
  cases d <;> simp only [insert?, Option.some.injEq, reduceCtorEq] at h
  all_goals
    subst h
    cases e <;> simp [lookup, entries, Std.ExtTreeMap.getElem?_insert,
      @eq_comm _ (Text.lowercase keyword)]

end Vocabulary

end ContextPolicy
