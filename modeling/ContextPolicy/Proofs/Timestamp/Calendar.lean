import Mathlib.Order.Monotone.Basic
import Mathlib.Tactic.IntervalCases
import ContextPolicy.Timestamp

/-! Days as they follow each other.

A day is counted from the first of March of the year 0, so that a leap day is the last of its
year and no rule for months has to know of it (`Date.ordinal`). There is such a day if it lies
before the first of the next month (`Date.Real`); these are the days that are accepted
(`Date.exists?_iff`), and they are compared as they are counted (`Date.number_lt_iff`). -/
namespace ContextPolicy.Date

/-! ### Counting days -/

/-- The days since the first of March of the year 0: 365 for a year and one for a leap day in
it, 153 for five months that begin with March or August, and the days of the month. -/
def ordinal (d : Date) : ℤ :=
  let year : ℤ := d.year - (if d.month ≤ 2 then 1 else 0)
  let month : ℤ := (d.month + 9) % 12
  365 * year + year / 4 - year / 100 + year / 400 + (153 * month + 2) / 5 + (d.day - 1)

-- 1 January 1970, by the count that starts on 1 March of the year 0
example : ordinal ⟨1970, 1, 1⟩ = 719468 := by
  decide

/-- The first day of a month, where months are counted through the years. -/
def ofMonth (k : ℕ) : Date :=
  ⟨k / 12, k % 12 + 1, 1⟩

/-- The number of the month of a day. -/
def monthNumber (d : Date) : ℕ :=
  12 * d.year + (d.month - 1)

/-- There is such a day. -/
structure Real (d : Date) : Prop where
  month : 1 ≤ d.month ∧ d.month ≤ 12
  day : 1 ≤ d.day
  lt : d.ordinal < (ofMonth (d.monthNumber + 1)).ordinal

theorem ordinal_eq (d : Date) (h : 1 ≤ d.month ∧ d.month ≤ 12) :
    d.ordinal = (ofMonth d.monthNumber).ordinal + (d.day - 1) := by
  have hyear : (12 * d.year + (d.month - 1)) / 12 = d.year := by omega
  have hmonth : (12 * d.year + (d.month - 1)) % 12 + 1 = d.month := by omega
  simp only [ordinal, ofMonth, monthNumber, hyear, hmonth]
  omega

theorem isLeap_iff (year : ℕ) :
    isLeap year = true ↔ year % 4 = 0 ∧ (year % 100 ≠ 0 ∨ year % 400 = 0) := by
  simp [isLeap]

/-- A month is as long as its number of days says. -/
theorem ordinal_ofMonth_succ (d : Date) (h : 1 ≤ d.month ∧ d.month ≤ 12) :
    (ofMonth (d.monthNumber + 1)).ordinal =
      (ofMonth d.monthNumber).ordinal + daysIn d.year d.month := by
  obtain ⟨year, month, day⟩ := d
  obtain ⟨hlow, hhigh⟩ : 1 ≤ month ∧ month ≤ 12 := h
  simp only [ordinal, ofMonth, monthNumber, daysIn, isLeap_iff]
  interval_cases month
  all_goals
    simp
    omega

theorem exists?_iff (d : Date) : d.exists? = true ↔ d.Real := by
  have hexists : d.exists? = true ↔
      (1 ≤ d.month ∧ d.month ≤ 12) ∧ 1 ≤ d.day ∧ d.day ≤ daysIn d.year d.month := by
    simp [exists?, and_assoc]
  rw [hexists]
  constructor
  · rintro ⟨hmonth, hday, hlast⟩
    refine ⟨hmonth, hday, ?_⟩
    rw [ordinal_eq d hmonth, ordinal_ofMonth_succ d hmonth]
    omega
  · rintro ⟨hmonth, hday, hlt⟩
    rw [ordinal_eq d hmonth, ordinal_ofMonth_succ d hmonth] at hlt
    exact ⟨hmonth, hday, by omega⟩

/-! ### Order -/

theorem ofMonth_mono {j k : ℕ} (h : j ≤ k) : (ofMonth j).ordinal ≤ (ofMonth k).ordinal := by
  refine monotone_nat_of_le_succ (f := fun k => (ofMonth k).ordinal) (fun k => ?_) h
  have hnumber : (ofMonth k).monthNumber = k := by
    simp only [monthNumber, ofMonth]
    omega
  have hmonth : 1 ≤ (ofMonth k).month ∧ (ofMonth k).month ≤ 12 := by
    simp only [ofMonth]
    omega
  have hsucc := ordinal_ofMonth_succ (ofMonth k) hmonth
  rw [hnumber] at hsucc
  omega

/-- A day of an earlier month is earlier. -/
theorem ordinal_lt_of_monthNumber {a b : Date} (ha : a.Real) (hb : b.Real)
    (h : a.monthNumber < b.monthNumber) : a.ordinal < b.ordinal := by
  have hb' := ordinal_eq b hb.month
  have hday := hb.day
  calc a.ordinal
      < (ofMonth (a.monthNumber + 1)).ordinal := ha.lt
    _ ≤ (ofMonth b.monthNumber).ordinal := ofMonth_mono h
    _ ≤ b.ordinal := by omega

theorem day_le {d : Date} (h : d.Real) : d.day ≤ 31 := by
  have hlt := h.lt
  rw [ordinal_eq d h.month, ordinal_ofMonth_succ d h.month, daysIn] at hlt
  split at hlt <;> split at hlt <;> omega

/-- Days are compared as they are counted. -/
theorem number_lt_iff {a b : Date} (ha : a.Real) (hb : b.Real) :
    a.number < b.number ↔ a.ordinal < b.ordinal := by
  have hnumber : a.number < b.number ↔ a.monthNumber < b.monthNumber ∨
      a.monthNumber = b.monthNumber ∧ a.day < b.day := by
    have := ha.month
    have := hb.month
    have := day_le ha
    have := day_le hb
    simp only [number, monthNumber]
    omega
  rw [hnumber]
  rcases lt_trichotomy a.monthNumber b.monthNumber with h | h | h
  · simp [h, ordinal_lt_of_monthNumber ha hb h]
  · rw [ordinal_eq a ha.month, ordinal_eq b hb.month, h]
    omega
  · have := ordinal_lt_of_monthNumber hb ha h
    omega

end ContextPolicy.Date
