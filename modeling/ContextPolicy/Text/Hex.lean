/-! Hexadecimal digits, in either case. -/
namespace ContextPolicy.Text

def hexValue (c : Char) : Option Nat :=
  if c.isDigit then some (c.toNat - '0'.toNat)
  else if 'a' ≤ c ∧ c ≤ 'f' then some (c.toNat - 'a'.toNat + 10)
  else if 'A' ≤ c ∧ c ≤ 'F' then some (c.toNat - 'A'.toNat + 10)
  else none

def isHexDigit (c : Char) : Bool :=
  (hexValue c).isSome

/-- The number that hexadecimal digits stand for. -/
def ofHexDigits (ds : List Char) : Option Nat :=
  (ds.mapM hexValue).map (·.foldl (fun n d => 16 * n + d) 0)

end ContextPolicy.Text
