import ContextPolicy.Condition.Scheme
import ContextPolicy.Expression
import ContextPolicy.Graph.Chain

/-! Expressions as triples. A keyword is a plain literal; an operator is a blank node with
a link to its operand or to the list of its operands. Blank nodes are numbered in the order
in which their expressions are written, the cells of a list behind all of its members. -/
namespace ContextPolicy

/-- What stands for an expression, the triples about it, and the number of the next blank
node. -/
structure Emission where
  node : Term
  triples : List Triple
  next : Nat
deriving DecidableEq, Repr

/-- The same for several expressions one after the other. -/
structure Emissions where
  nodes : List Term
  triples : List Triple
  next : Nat
deriving DecidableEq, Repr

namespace Emission

/-- The node with the number `n`, linked to the operand behind it. -/
def ofOperand (n : Nat) (operand : Emission) : Emission :=
  let link : Triple := ⟨conditionNode n, Names.Context.not, operand.node⟩
  ⟨conditionNode n, operand.triples ++ [link], operand.next⟩

/-- The node with the number `n`, linked to the list of the operands behind it. -/
def ofOperands (n : Nat) (property : String) (operands : Emissions) : Emission :=
  let head := Chain.head conditionNode operands.next operands.nodes
  let cells := Chain.triples conditionNode operands.next operands.nodes
  ⟨conditionNode n, operands.triples ++ ⟨conditionNode n, property, head⟩ :: cells,
    operands.next + operands.nodes.length⟩

end Emission

namespace Expression

mutual

/-- The triples of an expression whose blank nodes are numbered from `n`. -/
def emit (n : Nat) : Expression → Emission
  | keyword word => ⟨.plain word, [], n⟩
  | not operand => .ofOperand n (emit (n + 1) operand)
  | all operands => .ofOperands n Names.Context.allOf (emitEach (n + 1) operands)
  | any operands => .ofOperands n Names.Context.anyOf (emitEach (n + 1) operands)

def emitEach (n : Nat) : List Expression → Emissions
  | [] => ⟨[], [], n⟩
  | e :: rest =>
    let first := emit n e
    let more := emitEach first.next rest
    ⟨first.node :: more.nodes, first.triples ++ more.triples, more.next⟩

end

end Expression

end ContextPolicy
