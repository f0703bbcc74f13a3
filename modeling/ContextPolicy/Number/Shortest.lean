import ContextPolicy.Number.Decimal

/-! The shortest decimal that reads back as a double. A double is a decimal with many
digits; of the decimals with 1, 2, … 17 digits, the two next to it are tried, the nearer
one first, until one of them is nearest to no other double. Each format has its own way
with two that are equally near. -/
namespace ContextPolicy.Decimal

/-- Which of two equally near decimals is taken. -/
inductive Tie where
  | larger
  /-- The one whose last digit is even. -/
  | even
deriving DecidableEq, Repr

/-- A finite positive double, digit for digit. -/
def ofFloat (x : Float) : Decimal :=
  let bits := x.toBits.toNat
  let fraction := bits % Nat.pow 2 52
  let scale : Nat := bits / Nat.pow 2 52 % Nat.pow 2 11
  let significand := if scale = 0 then fraction else fraction + Nat.pow 2 52
  let power : Nat := if scale = 0 then 1 else scale
  if 1075 ≤ power then ⟨significand * Nat.pow 2 (power - 1075), 0⟩
  else ⟨significand * Nat.pow 5 (1075 - power), (power : Int) - 1075⟩

/-- Whether the smaller of the two neighbours of a number `n * unit + rest` is taken first. -/
def Tie.takesBelow (tie : Tie) (n rest unit : Nat) : Bool :=
  2 * rest < unit || (2 * rest == unit && tie == .even && n % 2 == 0)

/-- The decimals with `n` digits on both sides of a decimal, the nearer one first. -/
def roundings (tie : Tie) (d : Decimal) (n : Nat) : List Decimal :=
  let dropped := (digits d.significand).length - n
  let unit := Nat.pow 10 dropped
  let below : Decimal := ⟨d.significand / unit, d.exponent + dropped⟩
  let above : Decimal := ⟨below.significand + 1, below.exponent⟩
  if tie.takesBelow below.significand (d.significand % unit) unit then [below, above]
  else [above, below]

/-- The shortest decimal that a finite positive double is nearest to, and of several the
one nearest to the double. -/
def shortest (tie : Tie) (x : Float) : Decimal :=
  let d := ofFloat x
  let candidates := (List.range 17).flatMap fun n => d.roundings tie (n + 1)
  (candidates.find? fun c => c.toFloat.toBits == x.toBits).getD d

end ContextPolicy.Decimal
