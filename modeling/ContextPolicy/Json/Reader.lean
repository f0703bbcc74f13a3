import ContextPolicy.Json.Token

/-! JSON values, and how they are read from tokens: a stack holds the arrays and objects
that are still open, and each token is taken for what the innermost of them waits for. -/
namespace ContextPolicy

/-- A JSON value. The fields of an object stand in the order of the text, with repetitions. -/
inductive Json where
  | null
  | bool (b : Bool)
  | number (n : Json.Numeral)
  | string (content : Option String)
  | array (items : List Json)
  | object (fields : List (Option String × Json))

namespace Json

/-- An array or object that is still open, the last item or field in front. -/
inductive Frame where
  | array (items : List Json)
  | object (fields : List (Option String × Json))
  /-- An object whose next value belongs to a key. -/
  | field (fields : List (Option String × Json)) (key : Option String)

/-- What may come next. -/
inductive Expected where
  | value
  /-- Behind the opening of an array. -/
  | itemOrClose
  /-- Behind the opening of an object. -/
  | keyOrClose
  | key
  | colon (key : Option String)
  /-- Behind a complete value. -/
  | separator (v : Json)

structure Reader where
  stack : List Frame
  expected : Expected

namespace Reader

/-- A token where a value begins. -/
def openValue (stack : List Frame) : Token → Option Reader
  | .null => some ⟨stack, .separator .null⟩
  | .bool b => some ⟨stack, .separator (.bool b)⟩
  | .number n => some ⟨stack, .separator (.number n)⟩
  | .string s => some ⟨stack, .separator (.string s)⟩
  | .openArray => some ⟨.array [] :: stack, .itemOrClose⟩
  | .openObject => some ⟨.object [] :: stack, .keyOrClose⟩
  | _ => none

def step (r : Reader) (token : Token) : Option Reader :=
  match r.expected, r.stack, token with
  | .itemOrClose, .array [] :: stack, .closeArray => some ⟨stack, .separator (.array [])⟩
  | .keyOrClose, .object [] :: stack, .closeObject => some ⟨stack, .separator (.object [])⟩
  | .value, stack, token | .itemOrClose, stack, token => openValue stack token
  | .keyOrClose, stack, .string k | .key, stack, .string k => some ⟨stack, .colon k⟩
  | .colon k, .object fields :: stack, .colon => some ⟨.field fields k :: stack, .value⟩
  | .separator v, .array items :: stack, .comma => some ⟨.array (v :: items) :: stack, .value⟩
  | .separator v, .array items :: stack, .closeArray =>
    some ⟨stack, .separator (.array (v :: items).reverse)⟩
  | .separator v, .field fields k :: stack, .comma =>
    some ⟨.object ((k, v) :: fields) :: stack, .key⟩
  | .separator v, .field fields k :: stack, .closeObject =>
    some ⟨stack, .separator (.object ((k, v) :: fields).reverse)⟩
  | _, _, _ => none

/-- The value that is complete at the end of the tokens. -/
def finish : Reader → Option Json
  | ⟨[], .separator v⟩ => some v
  | _ => none

def run (r : Reader) : List Token → Option Json
  | [] => r.finish
  | token :: rest => (r.step token).bind fun r => r.run rest

end Reader

/-- The value of a JSON text. -/
def read (text : String) : Option Json :=
  (tokens text).bind (Reader.mk [] .value).run

end Json

end ContextPolicy
