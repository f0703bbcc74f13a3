import ContextPolicy.Expression
import ContextPolicy.Json.Decode
import ContextPolicy.Json.Written

/-! Expressions as JSON: an object whose only key is the operator, or `Keyword`. -/
namespace ContextPolicy.Expression

/-- The expression that a value stands for, if it nests at most `room` objects and arrays. -/
def ofJson? : (room : Nat) → Json → Option Expression
  | 0, _ => none
  | room + 1, v =>
    match v.only?, room with
    | some ("Keyword", v), _ => v.text?.map keyword
    | some ("Not", v), room => (ofJson? room v).map not
    | some ("All", .array items), room + 1 => (items.mapM (ofJson? room)).map all
    | some ("Any", .array items), room + 1 => (items.mapM (ofJson? room)).map any
    | _, _ => none

mutual

def jsonText : Expression → List Char
  | keyword word => Json.objectText [("Keyword", Json.stringText word)]
  | not operand => Json.objectText [("Not", jsonText operand)]
  | all operands => Json.objectText [("All", Json.arrayText (jsonTexts operands))]
  | any operands => Json.objectText [("Any", Json.arrayText (jsonTexts operands))]

def jsonTexts : List Expression → List (List Char)
  | [] => []
  | e :: rest => jsonText e :: jsonTexts rest

end

end ContextPolicy.Expression
