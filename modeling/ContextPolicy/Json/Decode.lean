import Std.Data.ExtTreeMap
import ContextPolicy.Json.Reader

/-! What JSON values stand for. A record may be given by its field names or, as an array,
by the order of its fields; a symbol by its name or as the only key of an object. -/
namespace ContextPolicy.Json

def text? : Json → Option String
  | string content => content
  | _ => none

def float? : Json → Option Float
  | number n => n.toFloat?
  | _ => none

/-- `null` for no value. -/
def nullable {α : Type} (decode : Json → Option α) : Json → Option (Option α)
  | null => some none
  | v => (decode v).map some

/-- The only key of an object, and its value. -/
def only? : Json → Option (String × Json)
  | object [(some key, v)] => some (key, v)
  | _ => none

def symbol? : Json → Option String
  | string content => content
  | object [(key, null)] => key
  | _ => none

/-- The fields of an object by their names. -/
def named? (fields : List (Option String × Json)) : Option (List (String × Json)) :=
  fields.mapM fun (key, v) => key.map (·, v)

/-- The fields of a record. As an object it may leave any of them out but repeat none; a
`closed` one has no other fields. As an array it has at least `needed` of them. -/
def record? (names : List String) (needed : Nat) (closed : Bool) : Json →
    Option (List (String × Json))
  | array items =>
    if needed ≤ items.length ∧ items.length ≤ names.length then some (names.zip items) else none
  | object fields => do
    let fields ← named? fields
    let known := fields.filter fun field => field.1 ∈ names
    if (closed && known.length != fields.length) || !(known.map (·.1)).Nodup then none
    else pure known
  | _ => none

/-- A field that a record has to have. -/
def required {α : Type} (fields : List (String × Json)) (name : String)
    (decode : Json → Option α) : Option α :=
  (fields.lookup name).bind decode

/-- A field that a record may leave out. -/
def optional {α : Type} (fields : List (String × Json)) (name : String) (default : α)
    (decode : Json → Option α) : Option α :=
  match fields.lookup name with
  | none => some default
  | some v => decode v

/-- The entries of an object that is a map, sorted by their keys; the last of a key counts. -/
def map? {α : Type} (decode : Json → Option α) : Json → Option (List (String × α))
  | object fields => do
    let fields ← named? fields
    let entries ← fields.mapM fun (key, v) => (decode v).map (key, ·)
    pure (Std.ExtTreeMap.ofList entries).toList
  | _ => none

end ContextPolicy.Json
