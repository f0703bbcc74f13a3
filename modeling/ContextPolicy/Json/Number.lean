import ContextPolicy.Number.Written

/-! Numbers in JSON. Reading keeps as many digits as fit in 64 bits, scales them by a
power of ten in doubles, and refuses what is then infinite; it is exact for up to 15
digits and a small exponent. Writing takes the shortest digits that are nearest to the
double (of two equally near ones the even), always with a point or an exponent. -/
namespace ContextPolicy.Json

/-- The parts of a number: its sign (`true` for a minus), the digits on both sides of the
point, and the exponent's sign and digits. -/
structure Numeral where
  negative : Bool
  whole : List Char
  fraction : List Char
  exponent : Option (Bool × List Char)
deriving DecidableEq, Repr

namespace Numeral

/-! ### Reading -/

/-- A point with at least one digit behind it, or nothing, and what follows. -/
def readFraction : List Char → Option (List Char × List Char)
  | '.' :: rest =>
    let ds := rest.takeWhile Number.isDigit
    if ds.isEmpty then none else some (ds, rest.dropWhile Number.isDigit)
  | cs => some ([], cs)

/-- An exponent with at least one digit, or nothing. -/
def readExponent : List Char → Option (Option (Bool × List Char))
  | [] => some none
  | mark :: rest =>
    let (negative, ds) := Number.sign rest
    if (mark = 'e' ∨ mark = 'E') ∧ ds ≠ [] ∧ ds.all Number.isDigit then some (some (negative, ds))
    else none

/-- A numeral, which has no superfluous sign or leading zero. -/
def read (cs : List Char) : Option Numeral := do
  let (negative, rest) := match cs with
    | '-' :: rest => (true, rest)
    | _ => (false, cs)
  let whole := rest.takeWhile Number.isDigit
  if whole.isEmpty || (whole.head? == some '0' && whole.length != 1) then none
  else
    let (fraction, rest) ← readFraction (rest.dropWhile Number.isDigit)
    let exponent ← readExponent rest
    pure ⟨negative, whole, fraction, exponent⟩

/-! ### Value -/

/-- Adds digits to a number while it fits in 64 bits; gives it with the digits left over. -/
def absorb (n : Nat) : List Char → Nat × List Char
  | [] => (n, [])
  | d :: rest =>
    let more := 10 * n + (d.toNat - '0'.toNat)
    if more < 2 ^ 64 then absorb more rest else (n, d :: rest)

/-- The digits that are kept. Leftover digits count towards the exponent in front of the
point and not at all behind it. -/
def kept (n : Numeral) : Decimal :=
  let (high, dropped) := absorb 0 n.whole
  let (significand, ignored) := absorb high n.fraction
  ⟨significand, (dropped.length : Int) - (n.fraction.length - ignored.length : Nat)⟩

/-- The double nearest to a power of ten. -/
def power (e : Nat) : Float :=
  (Decimal.mk 1 e).toFloat

/-- Divides by a power of ten, in steps of at most `10 ^ 308`. -/
def scaleDown (x : Float) (e : Nat) : Float :=
  if e ≤ 308 then x / power e
  else if x == 0 then x
  else scaleDown (x / power 308) (e - 308)
termination_by e

/-- Multiplies a natural number by a power of ten; `none` if the product is no finite
double. -/
def scale (significand : Nat) (e : Int) : Option Float :=
  let x := (Decimal.mk significand 0).toFloat
  if e < 0 then some (scaleDown x e.natAbs)
  else if 308 < e then (if significand = 0 then some x else none)
  else
    let y := x * power e.toNat
    if y.isFinite then some y else none

/-- The double that a numeral stands for; `none` if it is too large for one. -/
def toFloat? (n : Numeral) : Option Float := do
  let d := n.kept
  let x ← match n.exponent with
    | none => scale d.significand d.exponent
    | some (negative, ds) =>
      let e : Int := ofDigits ds
      scale d.significand (d.exponent + if negative then -e else e)
  pure (if n.negative then -x else x)

end Numeral

/-! ### Writing -/

/-- Up to 16 digits stand before the point, and up to 5 zeros behind it; beyond that the
first digit stands alone and an exponent with its sign follows. -/
def magnitude (d : Decimal) : List Char :=
  let ds := d.leading
  if -5 < d.point ∧ d.point ≤ 16 then
    Number.positional d ++ if (ds.length : Int) ≤ d.point then ['.', '0'] else []
  else
    ds.take 1 ++ (if ds.length = 1 then [] else '.' :: ds.drop 1) ++
      'e' :: (if 0 < d.point then ['+'] else []) ++ (toString (d.point - 1)).toList

/-- What is no finite number is written as `null`. -/
def floatText (x : Float) : List Char :=
  if !x.isFinite then "null".toList
  else
    (if Number.isNegative x then ['-'] else []) ++
      if x == 0 then ['0', '.', '0'] else magnitude (Decimal.shortest .even x.abs)

end ContextPolicy.Json
