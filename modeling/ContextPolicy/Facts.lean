import ContextPolicy.Dimension
import ContextPolicy.DistanceUnit
import ContextPolicy.Expression.Reader

/-! What an editor knows about a condition: for each dimension, what the user has filled
in, which may be incomplete. A dimension without a fact is switched off; that is not the
same as a fact with nothing in it. -/
namespace ContextPolicy

/-- A field that cannot be accepted, and why. -/
structure ValidationFault where
  field : String
  reason : String
deriving DecidableEq, Repr

namespace ValidationFault

def message (e : ValidationFault) : String :=
  "invalid " ++ e.field ++ ": " ++ e.reason

def missing (field : String) : ValidationFault :=
  ⟨field, "is required"⟩

end ValidationFault

structure TimeWindow where
  begin : Option String
  «end» : Option String
deriving DecidableEq, Repr

/-- A circle on the earth. -/
structure OutdoorArea where
  latitude : Option Float
  longitude : Option Float
  radius : Option Float
  unit : DistanceUnit
deriving DecidableEq, Repr

inductive Fact where
  | user (expression : Option Expression)
  | time (window : TimeWindow)
  | outdoor (area : OutdoorArea)
  | environment (expression : Option Expression)
  | device (expression : Option Expression)
deriving DecidableEq, Repr

namespace Fact

def dimension : Fact → Dimension
  | user _ => .user
  | time _ => .time
  | outdoor _ => .outdoor
  | environment _ => .environment
  | device _ => .device

/-- The fact of a dimension that takes keywords. -/
def ofExpression? (d : Dimension) (expression : Option Expression) : Option Fact :=
  match d with
  | .user => some (user expression)
  | .environment => some (environment expression)
  | .device => some (device expression)
  | .time | .outdoor => none

def expression? : Fact → Option (Option Expression)
  | user e | environment e | device e => some e
  | time _ | outdoor _ => none

end Fact

/-- What a user typed for a dimension, as an expression. -/
def readKeywords (d : Dimension) (text : String) : Except ValidationFault Expression :=
  match Expression.read text with
  | .ok e => .ok e
  | .error e => .error ⟨d.name, e.message⟩

/-- The facts behind the dimensions. `insert` keeps each behind its own. -/
structure Facts where
  user : Option Fact
  time : Option Fact
  outdoor : Option Fact
  environment : Option Fact
  device : Option Fact
deriving DecidableEq, Repr

namespace Facts

def empty : Facts :=
  ⟨none, none, none, none, none⟩

instance : EmptyCollection Facts :=
  ⟨empty⟩

def get? (f : Facts) : Dimension → Option Fact
  | .user => f.user
  | .time => f.time
  | .outdoor => f.outdoor
  | .environment => f.environment
  | .device => f.device

def set (f : Facts) (d : Dimension) (fact : Option Fact) : Facts :=
  match d with
  | .user => { f with user := fact }
  | .time => { f with time := fact }
  | .outdoor => { f with outdoor := fact }
  | .environment => { f with environment := fact }
  | .device => { f with device := fact }

/-- Replaces the fact of the same dimension. -/
def insert (f : Facts) (fact : Fact) : Facts :=
  f.set fact.dimension (some fact)

def remove (f : Facts) (d : Dimension) : Facts :=
  f.set d none

def contains (f : Facts) (d : Dimension) : Bool :=
  (f.get? d).isSome

/-- The facts with the dimensions that they stand behind, in order. -/
def entries (f : Facts) : List (Dimension × Fact) :=
  Dimension.all.filterMap fun d => (f.get? d).map (d, ·)

def toList (f : Facts) : List Fact :=
  f.entries.map (·.2)

def size (f : Facts) : Nat :=
  f.entries.length

def isEmpty (f : Facts) : Bool :=
  f.entries.isEmpty

def timeWindow? (f : Facts) : Option TimeWindow :=
  match f.time with
  | some (.time window) => some window
  | _ => none

def outdoorArea? (f : Facts) : Option OutdoorArea :=
  match f.outdoor with
  | some (.outdoor area) => some area
  | _ => none

def expression? (f : Facts) (d : Dimension) : Option (Option Expression) :=
  (f.get? d).bind Fact.expression?

/-! ### Lookups after changes -/

@[simp] theorem get?_empty (d : Dimension) : (∅ : Facts).get? d = none := by
  cases d <;> rfl

theorem get?_set (f : Facts) (d e : Dimension) (fact : Option Fact) :
    (f.set d fact).get? e = if e = d then fact else f.get? e := by
  cases d <;> cases e <;> rfl

theorem get?_insert (f : Facts) (fact : Fact) (d : Dimension) :
    (f.insert fact).get? d = if d = fact.dimension then some fact else f.get? d :=
  get?_set f fact.dimension d (some fact)

theorem get?_remove (f : Facts) (d e : Dimension) :
    (f.remove d).get? e = if e = d then none else f.get? e :=
  get?_set f d e none

end Facts

end ContextPolicy
