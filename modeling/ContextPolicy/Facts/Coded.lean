import ContextPolicy.Expression.Coded
import ContextPolicy.Facts

/-! Facts as JSON: an object with the dimensions as keys, and behind each of them an object
whose only key is the dimension of the fact. The two need not agree. -/
namespace ContextPolicy

/-! ### Reading -/

namespace Fact

/-- How deep an expression may nest: a text has at most 127 levels, three around it. -/
def expressionRoom : Nat :=
  124

def keywordsOfJson? (v : Json) : Option (Option Expression) := do
  let fields ← v.record? ["expression"] 1 false
  Json.optional fields "expression" none
    (Json.nullable (Expression.ofJson? expressionRoom))

def timeWindowOfJson? (v : Json) : Option TimeWindow := do
  let fields ← v.record? ["begin", "end"] 2 false
  let text (name : String) := Json.optional fields name none (Json.nullable Json.text?)
  pure ⟨← text "begin", ← text "end"⟩

def outdoorAreaOfJson? (v : Json) : Option OutdoorArea := do
  let fields ← v.record? ["latitude", "longitude", "radius", "unit"] 3 false
  let number (name : String) := Json.optional fields name none (Json.nullable Json.float?)
  let unit ← Json.optional fields "unit" .meters fun v => v.symbol?.bind DistanceUnit.ofName?
  pure ⟨← number "latitude", ← number "longitude", ← number "radius", unit⟩

def ofJson? (v : Json) : Option Fact := do
  let (name, v) ← v.only?
  match ← Dimension.ofName? name with
  | .user => user <$> keywordsOfJson? v
  | .time => time <$> timeWindowOfJson? v
  | .outdoor => outdoor <$> outdoorAreaOfJson? v
  | .environment => environment <$> keywordsOfJson? v
  | .device => device <$> keywordsOfJson? v

end Fact

namespace Facts

def ofJson? (v : Json) : Option Facts := do
  let entries ← v.map? Fact.ofJson?
  entries.foldlM (fun facts (name, fact) =>
    (Dimension.ofName? name).map fun d => facts.set d (some fact)) ∅

/-- The facts that a JSON text holds. -/
def ofJsonText? (text : String) : Option Facts :=
  (Json.read text).bind ofJson?

end Facts

/-! ### Writing -/

namespace Fact

def bodyText : Fact → List Char
  | user e | environment e | device e =>
    Json.objectText [("expression", Json.nullableText Expression.jsonText e)]
  | time window =>
    Json.objectText [("begin", Json.nullableText Json.stringText window.begin),
      ("end", Json.nullableText Json.stringText window.end)]
  | outdoor area =>
    Json.objectText [("latitude", Json.nullableText Json.floatText area.latitude),
      ("longitude", Json.nullableText Json.floatText area.longitude),
      ("radius", Json.nullableText Json.floatText area.radius),
      ("unit", Json.stringText area.unit.name)]

def jsonText (fact : Fact) : List Char :=
  Json.objectText [(fact.dimension.name, fact.bodyText)]

end Fact

def Facts.jsonText (facts : Facts) : List Char :=
  Json.objectText (facts.entries.map fun (d, fact) => (d.name, fact.jsonText))

end ContextPolicy
