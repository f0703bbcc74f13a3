/-! Decimals, and the double that is nearest to one. -/
namespace ContextPolicy

/-- The number `significand · 10 ^ exponent`. -/
structure Decimal where
  significand : Nat
  exponent : Int
deriving DecidableEq, Repr

/-- The digits of a number in base ten. -/
def digits (n : Nat) : List Char :=
  Nat.toDigits 10 n

/-- The number that digits stand for. -/
def ofDigits (ds : List Char) : Nat :=
  ds.foldl (fun n d => 10 * n + (d.toNat - '0'.toNat)) 0

namespace Decimal

/-- How many of a decimal's digits stand before the point; zero or less for none. -/
def point (d : Decimal) : Int :=
  (digits d.significand).length + d.exponent

/-- The digits without the zeros at their end. -/
def leading (d : Decimal) : List Char :=
  ((digits d.significand).reverse.dropWhile (· == '0')).reverse

def infinity : Float :=
  1 / 0

/-- The nearest double. Every decimal from `10 ^ 400` on is read as infinity and every one
below `10 ^ -400` as zero, so that no power of ten grows with the exponent. -/
def toFloat (d : Decimal) : Float :=
  if d.significand = 0 ∨ d.point < -400 then 0
  else if 400 < d.point then infinity
  else Float.ofScientific d.significand (d.exponent < 0) d.exponent.natAbs

end Decimal

end ContextPolicy
