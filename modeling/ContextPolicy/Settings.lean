import ContextPolicy.Condition.Scheme
import ContextPolicy.Json.Decode
import ContextPolicy.Prefixes
import ContextPolicy.TextFormat

/-! The settings of a session, read from a JSON text. Every field has a default. IRIs may
be given in short form, with the default prefixes or those of the settings. -/
namespace ContextPolicy

/-- Why a text holds no settings. -/
inductive SettingsFault where
  /-- The text itself could not be read. -/
  | unreadable
  | malformed
  | prefixes (fault : PrefixFault)
  | dateFormat (pattern : String)
  | condition (iri : String)
  | vocabulary (dimension keyword reason : String)
deriving DecidableEq, Repr

def SettingsFault.message : SettingsFault → String
  | unreadable => "could not read configuration"
  | malformed => "configuration is not valid json"
  | prefixes fault => fault.message
  | dateFormat pattern =>
    "unknown date format " ++ Text.quoted pattern ++
      ", expected \"dd/mm/yyyy\" or \"mm/dd/yyyy\""
  | condition iri => Text.quoted iri ++ " is not a writable IRI"
  | vocabulary dimension keyword reason =>
    "vocabulary entry " ++ dimension ++ "." ++ keyword ++ " is invalid: " ++ reason

structure Settings where
  base : String
  format : TextFormat
  dateFormat : DateFormat
  /-- The root of the condition. -/
  condition : Term
  prefixes : Prefixes
  vocabulary : Vocabulary
deriving DecidableEq

namespace Settings

def defaultBase : String :=
  "http://localhost/"

/-- The root of the condition where none is given. -/
def defaultCondition (base : String) : String :=
  base ++ "condition"

def default : Settings :=
  ⟨defaultBase, .turtle, .dayMonthYear, .named (defaultCondition defaultBase), .defaults, ∅⟩

def scheme (s : Settings) : Scheme :=
  ⟨s.condition, s.vocabulary, s.dateFormat⟩

/-! ### Fields of the text -/

/-- What the text gives for a keyword. -/
structure BindingEntry where
  predicate : String
  iri : Option String
  literal : Option String
  datatype : Option String
  lang : Option String
deriving DecidableEq, Repr

namespace BindingEntry

def fieldNames : List String :=
  ["predicate", "iri", "literal", "datatype", "lang"]

def ofJson? (v : Json) : Option BindingEntry := do
  let fields ← v.record? fieldNames 5 true
  pure {
    predicate := ← Json.required fields "predicate" Json.text?
    iri := ← Json.optional fields "iri" none (Json.nullable Json.text?)
    literal := ← Json.optional fields "literal" none (Json.nullable Json.text?)
    datatype := ← Json.optional fields "datatype" none (Json.nullable Json.text?)
    lang := ← Json.optional fields "lang" none (Json.nullable Json.text?) }

end BindingEntry

/-- What the text gives. -/
structure Entries where
  base : Option String
  format : TextFormat
  dateFormat : Option String
  condition : Option String
  prefixes : List (String × String)
  vocabulary : List (String × List (String × BindingEntry))
deriving DecidableEq, Repr

namespace Entries

def fieldNames : List String :=
  ["base_iri", "format", "date_format", "condition", "prefixes", "vocabulary"]

def ofJson? (v : Json) : Option Entries := do
  let fields ← v.record? fieldNames 0 true
  pure {
    base := ← Json.optional fields "base_iri" none (Json.nullable Json.text?)
    format := ← Json.optional fields "format" .turtle fun v => v.symbol?.bind TextFormat.ofName?
    dateFormat := ← Json.optional fields "date_format" none (Json.nullable Json.text?)
    condition := ← Json.optional fields "condition" none (Json.nullable Json.text?)
    prefixes := ← Json.optional fields "prefixes" [] (Json.map? Json.text?)
    vocabulary := ←
      Json.optional fields "vocabulary" [] (Json.map? (Json.map? BindingEntry.ofJson?)) }

end Entries

/-! ### From entries to settings -/

/-- A short form in full; any other text is an IRI already. -/
def expand (p : Prefixes) (text : String) : String :=
  (p.expand text).getD text

/-- The value of a keyword, or what is wrong with it. -/
def value (p : Prefixes) (b : BindingEntry) : Except String Term :=
  match b.iri, b.literal, b.datatype, b.lang with
  | some iri, none, none, none => .ok (.named (expand p iri))
  | some _, none, _, _ => .error "datatype and lang only apply to literals"
  | none, some text, none, none => .ok (.plain text)
  | none, some text, some datatype, none => .ok (.typed text (expand p datatype))
  | none, some text, none, some lang => .ok (.tagged text lang)
  | none, some _, some _, some _ => .error "a literal has either a datatype or a lang"
  | _, _, _, _ => .error "expected exactly one of iri and literal"

def binding (p : Prefixes) (b : BindingEntry) : Except String Binding := do
  let predicate := expand p b.predicate
  if !Iri.writable predicate then throw "predicate is not a valid IRI"
  let v ← value p b
  if !v.writable then throw "value cannot be written as turtle"
  pure ⟨predicate, v⟩

/-- Adds an entry of the vocabulary, or says what is wrong with it. -/
def addKeyword (p : Prefixes) (dimension : String) (v : Vocabulary)
    (entry : String × BindingEntry) : Except SettingsFault Vocabulary :=
  let fault (reason : String) : SettingsFault := .vocabulary dimension entry.1 reason
  match Dimension.ofName? dimension with
  | none => .error (fault "unknown dimension")
  | some d =>
    match binding p entry.2 with
    | .error reason => .error (fault reason)
    | .ok b =>
      match v.insert? d entry.1 b with
      | none => .error (fault "dimension takes no keywords")
      | some v => .ok v

def readVocabulary (p : Prefixes) (entries : List (String × List (String × BindingEntry))) :
    Except SettingsFault Vocabulary :=
  entries.foldlM (fun v entry => entry.2.foldlM (addKeyword p entry.1) v) ∅

def readDateFormat : Option String → Except SettingsFault DateFormat
  | none => .ok .dayMonthYear
  | some pattern =>
    match DateFormat.ofPattern? pattern with
    | none => .error (.dateFormat pattern)
    | some f => .ok f

def ofEntries (e : Entries) : Except SettingsFault Settings := do
  let base := e.base.getD defaultBase
  let dateFormat ← readDateFormat e.dateFormat
  let prefixes ← (Prefixes.defaults.insertAll e.prefixes).mapError .prefixes
  let condition := match e.condition with
    | some iri => expand prefixes iri
    | none => defaultCondition base
  if !Iri.writable condition then throw (.condition condition)
  let vocabulary ← readVocabulary prefixes e.vocabulary
  pure ⟨base, e.format, dateFormat, .named condition, prefixes, vocabulary⟩

/-- The settings that a JSON text holds. -/
def ofJson (text : String) : Except SettingsFault Settings :=
  match (Json.read text).bind Entries.ofJson? with
  | none => .error .malformed
  | some e => ofEntries e

/-- The settings that a file holds, if there is one. -/
def ofFile (content : Option ByteArray) : Except SettingsFault Settings :=
  match content.bind String.fromUTF8? with
  | none => .error .unreadable
  | some text => ofJson text

end Settings

end ContextPolicy
