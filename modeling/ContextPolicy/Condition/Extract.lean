import ContextPolicy.Condition.Scheme
import ContextPolicy.Facts
import ContextPolicy.Graph.Chain
import ContextPolicy.Number.Written

/-! Reading the facts back from a graph. Where a node has several values for a property, the
earliest counts. A part that is missing or cannot be read leaves its field empty; only a
list that is no list and an operator inside itself are faults. -/
namespace ContextPolicy

namespace Graph

/-! ### Expressions -/

inductive Operator where
  | all
  | any
  | not
deriving DecidableEq, Repr

namespace Operator

/-- The property that leads from a node with the operator to its operand, or to the list of
its operands. -/
def property : Operator → String
  | all => Names.Context.allOf
  | any => Names.Context.anyOf
  | not => Names.Context.not

end Operator

/-- The operator of a node, and where its property leads. -/
def operator? (g : Graph) (node : Term) : Option (Operator × Term) :=
  [Operator.all, .any, .not].findSome? fun o => (g.firstObject node o.property).map (o, ·)

theorem mem_subjectTerms_of_operator? {g : Graph} {node target : Term} {o : Operator}
    (h : g.operator? node = some (o, target)) : node ∈ g.index.subjectTerms := by
  obtain ⟨o, -, h⟩ := List.exists_of_findSome?_eq_some h
  obtain ⟨y, hy, -⟩ := Option.map_eq_some_iff.mp h
  exact mem_subjectTerms_of_firstObject hy

/-- The expressions that nodes stand for, one after the other, up to a fault or a node that
stands for none. -/
def readMembers (read : Term → Except ListFault (Option Expression)) :
    List Term → Except ListFault (Option (List Expression))
  | [] => .ok (some [])
  | member :: rest =>
    (read member).bind fun
      | none => .ok none
      | some e => (readMembers read rest).map (·.map (e :: ·))

/-- The expression that a node stands for, if any, where the marked operators lead to it. -/
def readExpression (g : Graph) (marked : List Term) (node : Term) :
    Except ListFault (Option Expression) :=
  match node with
  | .literal value _ _ => .ok (some (.keyword value))
  | node =>
    if _ : node ∈ marked then .error (.circular node)
    else
      match _ : g.operator? node with
      | none => .ok none
      | some (.not, operand) => (g.readExpression (node :: marked) operand).map (·.map .not)
      | some (.all, list) =>
        (g.decode list).bind fun members =>
          (readMembers (fun m => g.readExpression (node :: marked) m) members).map (·.map .all)
      | some (.any, list) =>
        (g.decode list).bind fun members =>
          (readMembers (fun m => g.readExpression (node :: marked) m) members).map (·.map .any)
termination_by g.unmarked marked
decreasing_by all_goals exact unmarked_lt (mem_subjectTerms_of_operator? ‹_›) ‹_›

/-! ### Fields -/

/-- The text of the earliest value, if it is a literal. -/
def literalOf (g : Graph) (node : Term) (property : String) : Option String :=
  (g.firstObject node property).bind Term.literalValue?

/-- The number that the earliest value is, if it is one. -/
def numberOf (g : Graph) (node : Term) (property : String) : Option Float :=
  (g.literalOf node property).bind Number.readTrimmed

def timeWindowOf (g : Graph) (node : Term) : TimeWindow :=
  ⟨g.literalOf node Names.Context.begin, g.literalOf node Names.Context.end⟩

/-- The area of a block; a unit that is unknown stands for metres. -/
def outdoorAreaOf (g : Graph) (node : Term) : OutdoorArea :=
  ⟨g.numberOf node Names.Context.latitude, g.numberOf node Names.Context.longitude,
    g.numberOf node Names.Context.radius,
    ((g.literalOf node Names.Context.unit).bind DistanceUnit.ofSymbol?).getD .meters⟩

def expressionOf (g : Graph) (node : Term) : Except ListFault (Option Expression) :=
  match g.firstObject node Names.Context.expression with
  | none => .ok none
  | some e => g.readExpression [] e

/-- The fact that a block of a dimension holds. -/
def factOf (g : Graph) (node : Term) : Dimension → Except ListFault Fact
  | .user => (g.expressionOf node).map .user
  | .time => .ok (.time (g.timeWindowOf node))
  | .outdoor => .ok (.outdoor (g.outdoorAreaOf node))
  | .environment => (g.expressionOf node).map .environment
  | .device => (g.expressionOf node).map .device

end Graph

namespace Scheme

/-- Adds the fact of a dimension to those read before, if the root has a block for it. -/
def extractDimension (s : Scheme) (g : Graph) (facts : Facts) (d : Dimension) :
    Except ListFault Facts :=
  match g.firstObject s.root d.link with
  | none => .ok facts
  | some node => (g.factOf node d).map facts.insert

/-- The facts of the condition in a graph. A root that is not typed as a condition has none. -/
def extract (s : Scheme) (g : Graph) : Except ListFault Facts :=
  let t := s.typing
  if (g.find ⟨some t.subject, some (.named t.predicate), some t.object⟩).isEmpty then .ok ∅
  else Dimension.all.foldlM (s.extractDimension g) ∅

end Scheme

end ContextPolicy
