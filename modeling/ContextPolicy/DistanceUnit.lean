/-! Units of distance. -/
namespace ContextPolicy

inductive DistanceUnit where
  | meters
  | kilometers
  | miles
deriving DecidableEq, Repr

namespace DistanceUnit

instance : Inhabited DistanceUnit :=
  ⟨meters⟩

def all : List DistanceUnit :=
  [meters, kilometers, miles]

def symbol : DistanceUnit → String
  | meters => "m"
  | kilometers => "km"
  | miles => "mi"

def ofSymbol? (symbol : String) : Option DistanceUnit :=
  all.find? (·.symbol == symbol)

theorem ofSymbol?_symbol (u : DistanceUnit) : ofSymbol? u.symbol = some u := by
  cases u <;> decide

def name : DistanceUnit → String
  | meters => "meters"
  | kilometers => "kilometers"
  | miles => "miles"

def ofName? (name : String) : Option DistanceUnit :=
  all.find? fun u => u.name == name

/-- A distance in metres. -/
def toMeters (u : DistanceUnit) (distance : Float) : Float :=
  match u with
  | meters => distance
  | kilometers => distance * 1000
  | miles => distance * 1609.344

end DistanceUnit

end ContextPolicy
