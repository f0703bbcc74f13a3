/-! Days and times of day, as users write them. -/
namespace ContextPolicy

/-- A day of the Gregorian calendar, which is also used for the time before it. -/
structure Date where
  year : Nat
  month : Nat
  day : Nat
deriving DecidableEq, Repr

namespace Date

def isLeap (year : Nat) : Bool :=
  year % 4 == 0 && (year % 100 != 0 || year % 400 == 0)

def daysIn (year month : Nat) : Nat :=
  if month = 2 then (if isLeap year then 29 else 28)
  else if month ∈ [4, 6, 9, 11] then 30
  else 31

/-- Whether there is such a day. -/
def exists? (d : Date) : Bool :=
  1 ≤ d.month && d.month ≤ 12 && 1 ≤ d.day && d.day ≤ daysIn d.year d.month

/-- A number that orders days. -/
def number (d : Date) : Nat :=
  (d.year * 100 + d.month) * 100 + d.day

end Date

structure TimeOfDay where
  hour : Nat
  minute : Nat
deriving DecidableEq, Repr

namespace TimeOfDay

def exists? (t : TimeOfDay) : Bool :=
  t.hour < 24 && t.minute < 60

/-- The minutes since midnight. -/
def minutes (t : TimeOfDay) : Nat :=
  t.hour * 60 + t.minute

end TimeOfDay

/-- The order in which the numbers of a day are written. -/
inductive DateFormat where
  | dayMonthYear
  | monthDayYear
deriving DecidableEq, Repr

namespace DateFormat

def pattern : DateFormat → String
  | dayMonthYear => "dd/mm/yyyy"
  | monthDayYear => "mm/dd/yyyy"

def ofPattern? (pattern : String) : Option DateFormat :=
  [dayMonthYear, monthDayYear].find? (·.pattern == pattern)

/-- The day that three numbers stand for. -/
def date (f : DateFormat) (first second year : Nat) : Date :=
  match f with
  | dayMonthYear => ⟨year, second, first⟩
  | monthDayYear => ⟨year, first, second⟩

end DateFormat

inductive Timestamp where
  | date (d : Date)
  | time (t : TimeOfDay)
deriving DecidableEq, Repr

namespace Timestamp

/-! ### Reading -/

def digitValue (c : Char) : Option Nat :=
  if c.isDigit then some (c.toNat - '0'.toNat) else none

/-- The number that digits stand for; `none` if something else is among them. -/
def number (ds : List Char) : Option Nat :=
  (ds.mapM digitValue).map (·.foldl (fun n d => 10 * n + d) 0)

/-- A day as `00/00/0000` or a time of day as `00:00`, if there is one. -/
def read (f : DateFormat) (text : String) : Option Timestamp :=
  match text.toList with
  | [a, b, '/', c, d, '/', e, g, h, i] => do
    let day := f.date (← number [a, b]) (← number [c, d]) (← number [e, g, h, i])
    if day.exists? then pure (date day) else none
  | [a, b, ':', c, d] => do
    let t : TimeOfDay := ⟨← number [a, b], ← number [c, d]⟩
    if t.exists? then pure (time t) else none
  | _ => none

/-! ### Order -/

def isDate : Timestamp → Bool
  | date _ => true
  | time _ => false

/-- Whether one timestamp is before another; days are before times of day. -/
def isBefore : Timestamp → Timestamp → Bool
  | date a, date b => a.number < b.number
  | date _, time _ => true
  | time _, date _ => false
  | time a, time b => a.minutes < b.minutes

/-! ### Writing -/

/-- A number in at least `width` digits. -/
def padded (width n : Nat) : List Char :=
  let ds := Nat.toDigits 10 n
  List.replicate (width - ds.length) '0' ++ ds

/-- The form that XML Schema gives days and times. -/
def written : Timestamp → List Char
  | date d => padded 4 d.year ++ '-' :: padded 2 d.month ++ '-' :: padded 2 d.day
  | time t => padded 2 t.hour ++ ':' :: padded 2 t.minute ++ [':', '0', '0']

end Timestamp

end ContextPolicy
