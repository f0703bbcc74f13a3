import ContextPolicy.Ask
import ContextPolicy.Condition.Emission
import ContextPolicy.Facts
import ContextPolicy.Number.Written

/-! The triples of a condition for given facts, or the first field among them that cannot
be accepted. Dimensions are written in their order, and blank nodes are numbered from zero,
so the same facts always give the same triples. -/
namespace ContextPolicy

/-- What a block holds beside its type, and the number of the next blank node. -/
structure BlockBody where
  triples : List Triple
  ask : Ask
  next : Nat
deriving Repr

namespace Scheme

/-! ### Keywords -/

def unknownKeyword (d : Dimension) (word : String) : ValidationFault :=
  ⟨d.name, "unknown keyword " ++ Text.quoted word⟩

/-- What a context has to hold for a keyword. -/
def keywordClause (s : Scheme) (d : Dimension) (word : String) :
    Except ValidationFault Ask.Clause :=
  match s.vocabulary.lookup d word with
  | none => .error (unknownKeyword d word)
  | some b => .ok (.triple (.var d.name) (.ofText b.predicate) (.term b.value))

mutual

/-- What a context has to hold for an expression: a group for a conjunction, a union for a
disjunction, and the absence of the operand for a negation. -/
def clause (s : Scheme) (d : Dimension) : Expression → Except ValidationFault Ask.Clause
  | .keyword word => s.keywordClause d word
  | .not operand => (s.clause d operand).map .notExists
  | .all operands => (s.clauses d operands).map .group
  | .any operands => (s.clauses d operands).map .union

def clauses (s : Scheme) (d : Dimension) :
    List Expression → Except ValidationFault (List Ask.Clause)
  | [] => .ok []
  | e :: rest => do
    let c ← s.clause d e
    let cs ← s.clauses d rest
    pure (c :: cs)

end

/-- The first keyword of an expression that the vocabulary does not have. -/
def firstUnknown? (s : Scheme) (d : Dimension) (e : Expression) : Option String :=
  e.keywords.find? fun word => (s.vocabulary.lookup d word).isNone

def keywordBody (s : Scheme) (d : Dimension) (expression : Option Expression) (node : Term)
    (n : Nat) : Except ValidationFault BlockBody :=
  match expression with
  | none => .error (.missing d.name)
  | some e =>
    match s.firstUnknown? d e with
    | some word => .error (unknownKeyword d word)
    | none => do
      let c ← s.clause d e
      let emitted := e.emit n
      pure ⟨emitted.triples ++ [⟨node, Names.Context.expression, emitted.node⟩], ⟨[c]⟩,
        emitted.next⟩

/-! ### Time -/

def timestampLiteral (t : Timestamp) : Term :=
  .typed (String.ofList t.written) (if t.isDate then Names.Xsd.date else Names.Xsd.time)

/-- The moments of a window, both ends included; times of day may go over midnight. -/
def windowFilter (name : String) (first last : Timestamp) : String :=
  let lower := "?" ++ name ++ " >= " ++ (timestampLiteral first).toText
  let upper := "?" ++ name ++ " <= " ++ (timestampLiteral last).toText
  lower ++ (if last.isBefore first then " || " else " && ") ++ upper

def timeAsk (first last : Timestamp) : Ask :=
  let (property, name) :=
    if first.isDate then (Names.Context.now, "now") else (Names.Context.timeOfDay, "clock")
  ⟨[.triple (.var "time") (.term (.named property)) (.var name),
    .filter (windowFilter name first last)]⟩

def readTimestamp (s : Scheme) (field text : String) : Except ValidationFault Timestamp :=
  match Timestamp.read s.dateFormat text with
  | none => .error ⟨field, "expected " ++ s.dateFormat.pattern ++ " or HH:MM"⟩
  | some t => .ok t

/-- A field that has been filled in. -/
def filled {α : Type} (field : String) : Option α → Except ValidationFault α
  | none => .error (.missing field)
  | some x => .ok x

/-- A field that passes a test. -/
def check (field reason : String) (passed : Bool) : Except ValidationFault Unit :=
  if passed then .ok () else .error ⟨field, reason⟩

def timeBody (s : Scheme) (window : TimeWindow) (node : Term) (n : Nat) :
    Except ValidationFault BlockBody := do
  let begin ← filled "begin" window.begin
  let «end» ← filled "end" window.end
  let first ← s.readTimestamp "begin" begin
  let last ← s.readTimestamp "end" «end»
  check "end" "must be a date when begin is a date, a time when begin is a time"
    (first.isDate == last.isDate)
  check "end" "is before begin" (!(first.isDate && last.isBefore first))
  pure ⟨[⟨node, Names.Context.begin, .plain begin⟩, ⟨node, Names.Context.end, .plain «end»⟩],
    timeAsk first last, n⟩

/-! ### Place -/

def decimal (x : Float) : Term :=
  .typed (Number.toText x) Names.Xsd.decimal

/-- Whether a number lies between two others, both included. -/
def isBetween (low high x : Float) : Bool :=
  x.isFinite && !(x < low) && !(high < x)

def distanceFilter (latitude longitude meters : Float) : String :=
  "<" ++ Names.Context.distance ++ ">(?lat, ?long, " ++ Number.toText latitude ++ ", " ++
    Number.toText longitude ++ ") <= " ++ Number.toText meters

def outdoorAsk (latitude longitude meters : Float) : Ask :=
  let location : Ask.Slot := .var "location"
  ⟨[.triple location (.term (.named Names.Context.positionLatitude)) (.var "lat"),
    .triple location (.term (.named Names.Context.positionLongitude)) (.var "long"),
    .filter (distanceFilter latitude longitude meters)]⟩

def outdoorBody (area : OutdoorArea) (node : Term) (n : Nat) :
    Except ValidationFault BlockBody := do
  let latitude ← filled "latitude" area.latitude
  let longitude ← filled "longitude" area.longitude
  let radius ← filled "radius" area.radius
  check "latitude" "must be between -90 and 90" (isBetween (-90) 90 latitude)
  check "longitude" "must be between -180 and 180" (isBetween (-180) 180 longitude)
  check "radius" "must be a positive number" (radius.isFinite && !(radius ≤ 0))
  pure ⟨[⟨node, Names.Context.latitude, decimal latitude⟩,
      ⟨node, Names.Context.longitude, decimal longitude⟩,
      ⟨node, Names.Context.radius, decimal radius⟩,
      ⟨node, Names.Context.unit, .plain area.unit.symbol⟩],
    outdoorAsk latitude longitude (area.unit.toMeters radius), n⟩

/-! ### Conditions -/

def body (s : Scheme) (fact : Fact) (node : Term) (n : Nat) : Except ValidationFault BlockBody :=
  match fact with
  | .user e => s.keywordBody .user e node n
  | .time window => s.timeBody window node n
  | .outdoor area => outdoorBody area node n
  | .environment e => s.keywordBody .environment e node n
  | .device e => s.keywordBody .device e node n

/-- The triples of a block whose blank nodes are numbered from `n`, and the number of the
next one. -/
def block (s : Scheme) (fact : Fact) (n : Nat) : Except ValidationFault (List Triple × Nat) := do
  let d := fact.dimension
  let node := conditionNode n
  let body ← s.body fact node (n + 1)
  let ask : Term := .typed body.ask.toText Names.Context.askQuery
  pure (⟨s.root, d.link, node⟩ :: ⟨node, Names.Rdf.type, .named d.type⟩ :: body.triples ++
    [⟨node, Names.Context.condition, ask⟩], body.next)

def blocks (s : Scheme) (n : Nat) : List Fact → Except ValidationFault (List Triple)
  | [] => .ok []
  | fact :: rest => do
    let (ts, next) ← s.block fact n
    let more ← s.blocks next rest
    pure (ts ++ more)

/-- The triples of the condition for some facts. -/
def compile (s : Scheme) (facts : Facts) : Except ValidationFault (List Triple) :=
  if facts.isEmpty then .ok [] else (s.blocks 0 facts.toList).map (s.typing :: ·)

end Scheme

end ContextPolicy
