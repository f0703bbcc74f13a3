import ContextPolicy.Expression
import ContextPolicy.Expression.Token

/-! Reading expressions. Negation binds tightest, then conjunction, then disjunction. The
tokens are read one after the other; a stack holds what is not complete, one level for
each open parenthesis, so the first token that cannot follow is where reading stops. -/
namespace ContextPolicy

/-- Why a text is no expression. -/
inductive ExpressionFault where
  | empty
  | unexpected (offset : Nat) (token : Expression.Token)
  /-- A token inside parentheses that stands where they might be closed. -/
  | notClosing (offset : Nat) (token : Expression.Token)
  | unclosed (offset : Nat)
  /-- The text ends where an operand is missing. -/
  | unfinished (offset : Nat)
deriving DecidableEq, Repr

namespace ExpressionFault

/-- The place of the fault, in bytes. -/
def offset : ExpressionFault → Nat
  | empty => 0
  | unexpected offset _ | notClosing offset _ | unclosed offset | unfinished offset => offset

def reason : ExpressionFault → String
  | empty => "expression is empty"
  | unexpected _ token => "unexpected " ++ token.shown
  | notClosing _ token => "expected ')' but found " ++ token.shown
  | unclosed _ => "unclosed '('"
  | unfinished _ => "unexpected end of expression"

def message (e : ExpressionFault) : String :=
  e.reason ++ " at offset " ++ toString e.offset

end ExpressionFault

namespace Expression

/-- An operator over operands in reverse; a single operand stands for itself. -/
def join (operator : List Expression → Expression) : List Expression → Expression
  | [e] => e
  | es => operator es.reverse

/-- An expression behind a number of negations. -/
def negated : Nat → Expression → Expression
  | 0, e => e
  | n + 1, e => not (negated n e)

/-- What has been read inside a pair of parentheses, or of the whole text. Operands stand
in reverse. -/
structure Level where
  /-- The complete operands of the disjunction. -/
  anys : List Expression
  /-- The operands of the conjunction that is read. -/
  alls : List Expression
  /-- How many negations the next operand stands behind. -/
  nots : Nat
deriving DecidableEq, Repr

namespace Level

def empty : Level :=
  ⟨[], [], 0⟩

def add (l : Level) (e : Expression) : Level :=
  ⟨l.anys, negated l.nots e :: l.alls, 0⟩

/-- The disjunction gets the conjunction as an operand. -/
def next (l : Level) : Level :=
  ⟨join all l.alls :: l.anys, [], 0⟩

/-- The expression that the operands make. -/
def close (l : Level) : Expression :=
  join any l.next.anys

end Level

/-- The levels around the innermost one, each with the place of the parenthesis that it is
interrupted by. -/
abbrev Outer := List (Nat × Level)

structure Reader where
  inner : Level
  outer : Outer
  /-- Whether the last token completed an operand. -/
  complete : Bool
deriving DecidableEq, Repr

namespace Reader

def start : Reader :=
  ⟨.empty, [], false⟩

/-- A token where an operand has to begin. -/
def begin (r : Reader) (offset : Nat) : Token → Except ExpressionFault Reader
  | .not => .ok { r with inner := { r.inner with nots := r.inner.nots + 1 } }
  | .word text => .ok ⟨r.inner.add (keyword text), r.outer, true⟩
  | .openParen => .ok ⟨.empty, (offset, r.inner) :: r.outer, false⟩
  | token => .error (.unexpected offset token)

/-- A token behind an operand. -/
def proceed (r : Reader) (offset : Nat) (token : Token) : Except ExpressionFault Reader :=
  match token, r.outer with
  | .and, _ => .ok { r with complete := false }
  | .or, _ => .ok { r with inner := r.inner.next, complete := false }
  | .closeParen, (_, level) :: outer => .ok ⟨level.add r.inner.close, outer, true⟩
  | token, [] => .error (.unexpected offset token)
  | token, _ :: _ => .error (.notClosing offset token)

def step (r : Reader) (offset : Nat) (token : Token) : Except ExpressionFault Reader :=
  if r.complete then r.proceed offset token else r.begin offset token

def run (r : Reader) : List (Nat × Token) → Except ExpressionFault Reader
  | [] => .ok r
  | (offset, token) :: rest => do
    let r ← r.step offset token
    r.run rest

/-- The expression that is complete at the end of a text of `length` bytes. -/
def finish (r : Reader) (length : Nat) : Except ExpressionFault Expression :=
  if r.complete then
    match r.outer with
    | [] => .ok r.inner.close
    | (offset, _) :: _ => .error (.unclosed offset)
  else .error (.unfinished length)

end Reader

def readTokens (length : Nat) (tokens : List (Nat × Token)) :
    Except ExpressionFault Expression :=
  if tokens.isEmpty then .error .empty
  else (Reader.start.run tokens).bind fun r => r.finish length

/-- The expression that a text stands for. -/
def read (text : String) : Except ExpressionFault Expression :=
  readTokens text.utf8ByteSize (tokens text)

end Expression

end ContextPolicy
