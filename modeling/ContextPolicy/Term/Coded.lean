import ContextPolicy.Json.Decode
import ContextPolicy.Json.Written
import ContextPolicy.Term

/-! Terms as JSON: an object whose only key is the kind of the term. -/
namespace ContextPolicy.Term

def ofJson? (v : Json) : Option Term := do
  let (kind, v) ← v.only?
  match kind with
  | "Named" =>
    let fields ← v.record? ["iri"] 1 false
    named <$> Json.required fields "iri" Json.text?
  | "Blank" =>
    let fields ← v.record? ["id"] 1 false
    blank <$> Json.required fields "id" Json.text?
  | "Literal" =>
    let fields ← v.record? ["val", "datatype", "lang"] 3 false
    let value ← Json.required fields "val" Json.text?
    let datatype ← Json.optional fields "datatype" none (Json.nullable Json.text?)
    let lang ← Json.optional fields "lang" none (Json.nullable Json.text?)
    pure (literal value datatype lang)
  | _ => none

def jsonText : Term → List Char
  | named iri => Json.objectText [("Named", Json.objectText [("iri", Json.stringText iri)])]
  | blank label => Json.objectText [("Blank", Json.objectText [("id", Json.stringText label)])]
  | literal value datatype lang =>
    Json.objectText [("Literal", Json.objectText [("val", Json.stringText value),
      ("datatype", Json.nullableText Json.stringText datatype),
      ("lang", Json.nullableText Json.stringText lang)])]

end ContextPolicy.Term
