import ContextPolicy.Number.Shortest
import ContextPolicy.Text.Blank

/-! The written form of a double: the digits of the shortest decimal that reads back, the
larger one of two equally near, in positional notation whatever its size and with a point
only in front of digits; infinities and NaN are words. `read` takes this form, exponents,
and superfluous signs and zeros. -/
namespace ContextPolicy.Number

/-! ### Writing -/

/-- The digits of a decimal around its point. -/
def positional (d : Decimal) : List Char :=
  let ds := d.leading
  if d.point ≤ 0 then '0' :: '.' :: List.replicate d.point.natAbs '0' ++ ds
  else
    let n := d.point.toNat
    if ds.length ≤ n then ds ++ List.replicate (n - ds.length) '0'
    else ds.take n ++ '.' :: ds.drop n

/-- Whether the sign bit is set. -/
def isNegative (x : Float) : Bool :=
  Nat.pow 2 63 ≤ x.toBits.toNat

/-- The written form of a finite number without its sign. -/
def magnitude (x : Float) : List Char :=
  if x == 0 then ['0'] else positional (Decimal.shortest .larger x.abs)

def toText (x : Float) : String :=
  if x.isNaN then "NaN"
  else
    String.ofList ((if isNegative x then ['-'] else []) ++
      if x.isFinite then magnitude x else ['i', 'n', 'f'])

/-! ### Reading -/

def nan : Float :=
  0 / 0

def isDigit (c : Char) : Bool :=
  c.isDigit

/-- The sign in front of a number and what follows it; `true` stands for a minus. -/
def sign : List Char → Bool × List Char
  | '-' :: rest => (true, rest)
  | '+' :: rest => (false, rest)
  | cs => (false, cs)

/-- The exponent behind the digits of a number. -/
def exponent : List Char → Option Int
  | [] => some 0
  | mark :: rest =>
    if mark = 'e' ∨ mark = 'E' then
      let (negative, ds) := sign rest
      if ds.isEmpty || !ds.all isDigit then none
      else some (if negative then -(ofDigits ds : Int) else ofDigits ds)
    else none

/-- The digits behind a point, and what follows them. -/
def fraction : List Char → List Char × List Char
  | '.' :: rest => (rest.takeWhile isDigit, rest.dropWhile isDigit)
  | cs => ([], cs)

/-- Digits with a point anywhere among them, then an exponent. -/
def readDecimal (cs : List Char) : Option Decimal :=
  let whole := cs.takeWhile isDigit
  let (part, rest) := fraction (cs.dropWhile isDigit)
  if whole.isEmpty && part.isEmpty then none
  else (exponent rest).map fun e => ⟨ofDigits (whole ++ part), e - part.length⟩

/-- The words for what is no finite number, in any case. -/
def readWord (cs : List Char) : Option Float :=
  let word := String.ofList (cs.map Char.toLower)
  if word = "inf" ∨ word = "infinity" then some Decimal.infinity
  else if word = "nan" then some nan
  else none

def read (cs : List Char) : Option Float :=
  let (negative, rest) := sign cs
  ((readWord rest).or ((readDecimal rest).map Decimal.toFloat)).map fun x =>
    if negative then -x else x

/-- A number between white space. -/
def readTrimmed (text : String) : Option Float :=
  read (Text.trimBlank text.toList)

end ContextPolicy.Number
