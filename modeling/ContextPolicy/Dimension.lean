import ContextPolicy.Names

/-! The dimensions of a context: what a condition can ask of it. Their order here is the
order in which they are written and read. -/
namespace ContextPolicy

inductive Dimension where
  | user
  | time
  | outdoor
  | environment
  | device
deriving DecidableEq, Repr

namespace Dimension

def all : List Dimension :=
  [user, time, outdoor, environment, device]

theorem mem_all (d : Dimension) : d ∈ all := by
  cases d <;> decide

def name : Dimension → String
  | user => "user"
  | time => "time"
  | outdoor => "outdoor"
  | environment => "environment"
  | device => "device"

def ofName? (name : String) : Option Dimension :=
  all.find? (·.name == name)

theorem ofName?_name (d : Dimension) : ofName? d.name = some d := by
  cases d <;> decide

theorem name_of_ofName? {name : String} {d : Dimension} (h : ofName? name = some d) :
    d.name = name :=
  beq_iff_eq.mp (List.find?_some h :)

/-- The property that leads from a condition to its block for a dimension. -/
def link : Dimension → String
  | user => Names.Context.user
  | time => Names.Context.time
  | outdoor => Names.Context.outdoor
  | environment => Names.Context.environment
  | device => Names.Context.device

/-- The class of the blocks for a dimension. -/
def type : Dimension → String
  | user => Names.Context.userCondition
  | time => Names.Context.timeCondition
  | outdoor => Names.Context.outdoorCondition
  | environment => Names.Context.environmentCondition
  | device => Names.Context.deviceCondition

/-- Whether the facts of a dimension are expressions over keywords. -/
def takesKeywords : Dimension → Bool
  | user | environment | device => true
  | time | outdoor => false

end Dimension

end ContextPolicy
