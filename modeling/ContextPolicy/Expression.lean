/-! Boolean expressions over keywords, and their written form: the operators as words, and
parentheses around each conjunction and disjunction that stands inside another operator.
Operators with no or one operand are expressions too, but no text stands for them. -/
namespace ContextPolicy

inductive Expression where
  | keyword (word : String)
  | not (operand : Expression)
  /-- The conjunction of the operands. -/
  | all (operands : List Expression)
  /-- The disjunction of the operands. -/
  | any (operands : List Expression)
deriving Repr

namespace Expression

mutual

def decEq : (a b : Expression) → Decidable (a = b)
  | keyword v, keyword w =>
    if h : v = w then .isTrue (h ▸ rfl) else .isFalse fun e => h (keyword.inj e)
  | not a, not b =>
    match decEq a b with
    | .isTrue h => .isTrue (h ▸ rfl)
    | .isFalse h => .isFalse fun e => h (not.inj e)
  | all as, all bs =>
    match decEqList as bs with
    | .isTrue h => .isTrue (h ▸ rfl)
    | .isFalse h => .isFalse fun e => h (all.inj e)
  | any as, any bs =>
    match decEqList as bs with
    | .isTrue h => .isTrue (h ▸ rfl)
    | .isFalse h => .isFalse fun e => h (any.inj e)
  | keyword _, not _ | keyword _, all _ | keyword _, any _ => .isFalse nofun
  | not _, keyword _ | not _, all _ | not _, any _ => .isFalse nofun
  | all _, keyword _ | all _, not _ | all _, any _ => .isFalse nofun
  | any _, keyword _ | any _, not _ | any _, all _ => .isFalse nofun

def decEqList : (as bs : List Expression) → Decidable (as = bs)
  | [], [] => .isTrue rfl
  | [], _ :: _ | _ :: _, [] => .isFalse nofun
  | a :: as, b :: bs =>
    match decEq a b with
    | .isFalse h => .isFalse fun e => h (List.cons.inj e).1
    | .isTrue h =>
      match decEqList as bs with
      | .isTrue hs => .isTrue (h ▸ hs ▸ rfl)
      | .isFalse hs => .isFalse fun e => hs (List.cons.inj e).2

end

instance : DecidableEq Expression :=
  decEq

/-! ### Keywords -/

mutual

/-- The keywords in the order in which they are written. -/
def keywords : Expression → List String
  | keyword word => [word]
  | not operand => operand.keywords
  | all operands | any operands => keywordsOfAll operands

def keywordsOfAll : List Expression → List String
  | [] => []
  | e :: rest => e.keywords ++ keywordsOfAll rest

end

theorem keywordsOfAll_eq_flatMap (es : List Expression) :
    keywordsOfAll es = es.flatMap keywords := by
  induction es with
  | nil => simp [keywordsOfAll]
  | cons e rest ih => simp [keywordsOfAll, ih]

/-! ### Written form -/

/-- Parentheses, where they are needed. -/
def enclosed (needed : Bool) (cs : List Char) : List Char :=
  if needed then '(' :: cs ++ [')'] else cs

mutual

/-- An expression, inside another operator or on its own. -/
def writtenIn (inside : Bool) : Expression → List Char
  | keyword word => word.toList
  | not operand => "not ".toList ++ writtenIn true operand
  | all operands => enclosed inside (" and ".toList.intercalate (writtenOperands operands))
  | any operands => enclosed inside (" or ".toList.intercalate (writtenOperands operands))

def writtenOperands : List Expression → List (List Char)
  | [] => []
  | e :: rest => writtenIn true e :: writtenOperands rest

end

def written (e : Expression) : List Char :=
  e.writtenIn false

def toText (e : Expression) : String :=
  String.ofList e.written

end Expression

end ContextPolicy
