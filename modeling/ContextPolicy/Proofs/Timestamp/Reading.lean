import Mathlib.Algebra.Order.Ring.Rat
import Mathlib.Data.List.Basic
import Mathlib.Logic.Relator
import Mathlib.Tactic.Linarith
import ContextPolicy.Proofs.Timestamp.Calendar

/-! What is read as a moment, and how moments are written.

A text is a moment in exactly two shapes: three numbers with slashes between them, in the order
of the format, if they are those of a day, or two numbers with a colon between them, if they
are those of a time of day (`Timestamp.Spelled`, `Timestamp.read_eq_some_iff`). The written
form of such a moment is the one of XML Schema, and a text is that of one moment only. -/
namespace ContextPolicy

/-- The text is a number in so many digits. -/
structure Numeral (width : ℕ) (cs : List Char) (n : ℕ) : Prop where
  length : cs.length = width
  digits : ∀ c ∈ cs, c.isDigit = true
  value : Nat.ofDigitChars 10 cs 0 = n

theorem Numeral.unique {width : ℕ} {cs : List Char} {m n : ℕ} (hm : Numeral width cs m)
    (hn : Numeral width cs n) : m = n :=
  hm.value.symm.trans hn.value

theorem ofDigitChars_lt {cs : List Char} (h : ∀ c ∈ cs, c.isDigit = true) :
    Nat.ofDigitChars 10 cs 0 < 10 ^ cs.length := by
  induction cs with
  | nil => decide
  | cons c rest ih =>
    obtain ⟨hc, hrest⟩ := List.forall_mem_cons.mp h
    have hdigit : c.toNat - 48 ≤ 9 := by
      have hrange : 48 ≤ c.toNat ∧ c.toNat ≤ 57 := Char.isDigit_iff_toNat.mp hc
      omega
    have hmore := ih hrest
    have hhead : 10 ^ rest.length * (c.toNat - 48) ≤ 10 ^ rest.length * 9 :=
      Nat.mul_le_mul_left _ hdigit
    rw [Nat.ofDigitChars_cons, Nat.ofDigitChars_eq_ofDigitChars_zero, List.length_cons,
      Nat.pow_succ, Nat.mul_zero, Nat.zero_add]
    change 10 ^ rest.length * (c.toNat - 48) + _ < _
    omega

theorem Numeral.lt {width : ℕ} {cs : List Char} {n : ℕ} (h : Numeral width cs n) :
    n < 10 ^ width := by
  rw [← h.length, ← h.value]
  exact ofDigitChars_lt h.digits

namespace Timestamp

/-! ### Numbers -/

theorem mapM_digitValue (ds : List Char) : ds.mapM digitValue =
    if ds.all (·.isDigit) = true then some (ds.map fun d => d.toNat - '0'.toNat) else none := by
  induction ds with
  | nil => rfl
  | cons d rest ih =>
    rw [List.mapM_cons, ih, digitValue, List.all_cons]
    cases d.isDigit <;> cases rest.all (·.isDigit) <;> rfl

theorem number_eq_some_iff {ds : List Char} {n : ℕ} :
    number ds = some n ↔ (∀ d ∈ ds, d.isDigit = true) ∧ Nat.ofDigitChars 10 ds 0 = n := by
  rw [number, mapM_digitValue, Nat.ofDigitChars_eq_foldl, ← List.all_eq_true]
  split_ifs with hds
  · rw [Option.map_some, List.foldl_map, Option.some.injEq]
    exact (and_iff_right hds).symm
  · simp [hds]

theorem numeral_iff {width : ℕ} {cs : List Char} {n : ℕ} :
    Numeral width cs n ↔ cs.length = width ∧ number cs = some n := by
  rw [number_eq_some_iff]
  exact ⟨fun ⟨hlength, hdigits, hvalue⟩ => ⟨hlength, hdigits, hvalue⟩,
    fun ⟨hlength, hdigits, hvalue⟩ => ⟨hlength, hdigits, hvalue⟩⟩

theorem exists_of_numeral_two {cs : List Char} {n : ℕ} (h : Numeral 2 cs n) :
    ∃ a b, cs = [a, b] ∧ number [a, b] = some n := by
  obtain ⟨hlength, hn⟩ := numeral_iff.mp h
  obtain ⟨a, b, rfl⟩ := List.length_eq_two.mp hlength
  exact ⟨a, b, rfl, hn⟩

theorem exists_of_numeral_four {cs : List Char} {n : ℕ} (h : Numeral 4 cs n) :
    ∃ a b c d, cs = [a, b, c, d] ∧ number [a, b, c, d] = some n := by
  obtain ⟨hlength, hn⟩ := numeral_iff.mp h
  obtain ⟨a, b, c, d, rfl⟩ := List.length_eq_four.mp hlength
  exact ⟨a, b, c, d, rfl, hn⟩

/-! ### Shapes -/

/-- The text is a day or a time of day, with the numbers of a day in the order of the format. -/
inductive Spelled (f : DateFormat) : List Char → Timestamp → Prop
  | date {a b c : List Char} {first second year : ℕ} (ha : Numeral 2 a first)
    (hb : Numeral 2 b second) (hc : Numeral 4 c year) (h : (f.date first second year).Real) :
    Spelled f (a ++ '/' :: b ++ '/' :: c) (.date (f.date first second year))
  | time {a b : List Char} {hour minute : ℕ} (ha : Numeral 2 a hour) (hb : Numeral 2 b minute)
    (hhour : hour < 24) (hminute : minute < 60) :
    Spelled f (a ++ ':' :: b) (.time ⟨hour, minute⟩)

theorem read_eq_some_iff {f : DateFormat} {text : String} {t : Timestamp} :
    read f text = some t ↔ Spelled f text.toList t := by
  constructor
  · intro h
    unfold read at h
    split at h
    · next a b c d e g i j htext =>
      simp only [Option.bind_eq_bind, Option.bind_eq_some_iff] at h
      obtain ⟨first, hfirst, second, hsecond, year, hyear, h⟩ := h
      split at h
      · next hday =>
        cases h
        have ha : Numeral 2 [a, b] first := numeral_iff.mpr ⟨rfl, hfirst⟩
        have hb : Numeral 2 [c, d] second := numeral_iff.mpr ⟨rfl, hsecond⟩
        have hc : Numeral 4 [e, g, i, j] year := numeral_iff.mpr ⟨rfl, hyear⟩
        rw [htext]
        exact .date ha hb hc ((Date.exists?_iff _).mp hday)
      · cases h
    · next a b c d htext =>
      simp only [Option.bind_eq_bind, Option.bind_eq_some_iff] at h
      obtain ⟨hour, hhour, minute, hminute, h⟩ := h
      split at h
      · next htime =>
        cases h
        have ha : Numeral 2 [a, b] hour := numeral_iff.mpr ⟨rfl, hhour⟩
        have hb : Numeral 2 [c, d] minute := numeral_iff.mpr ⟨rfl, hminute⟩
        simp only [TimeOfDay.exists?, Bool.and_eq_true, decide_eq_true_eq] at htime
        rw [htext]
        exact .time ha hb htime.1 htime.2
      · cases h
    · cases h
  · intro h
    unfold read
    generalize text.toList = cs at h
    cases h with
    | date ha hb hc hreal =>
      obtain ⟨a, b, rfl, hfirst⟩ := exists_of_numeral_two ha
      obtain ⟨c, d, rfl, hsecond⟩ := exists_of_numeral_two hb
      obtain ⟨e, g, i, j, rfl, hyear⟩ := exists_of_numeral_four hc
      have hday := (Date.exists?_iff _).mpr hreal
      simp [hfirst, hsecond, hyear, hday]
    | time ha hb hhour hminute =>
      obtain ⟨a, b, rfl, hread⟩ := exists_of_numeral_two ha
      obtain ⟨c, d, rfl, hread'⟩ := exists_of_numeral_two hb
      simp [hread, hread', TimeOfDay.exists?, hhour, hminute]

theorem Spelled.unique {f : DateFormat} {cs : List Char} {t t' : Timestamp}
    (h : Spelled f cs t) (h' : Spelled f cs t') : t = t' := by
  rw [← String.toList_ofList (l := cs)] at h h'
  exact Option.some.inj ((read_eq_some_iff.mpr h).symm.trans (read_eq_some_iff.mpr h'))

/-! ### Writing -/

theorem numeral_padded {width n : ℕ} (hwidth : 0 < width) (h : n < 10 ^ width) :
    Numeral width (padded width n) n where
  length := by
    have hlength := (Nat.length_toDigits_le_iff (by decide) hwidth).mpr h
    simp only [padded, List.length_append, List.length_replicate]
    omega
  digits := by
    intro c hc
    rcases List.mem_append.mp hc with hc | hc
    · rw [List.eq_of_mem_replicate hc]
      rfl
    · exact Nat.isDigit_of_mem_toDigits (by decide) (by decide) hc
  value := by
    rw [padded, Nat.ofDigitChars_append, Nat.ofDigitChars_replicate_zero, Nat.mul_zero,
      Nat.ofDigitChars_ten_toDigits]

/-- The text is a day as XML Schema writes it, counted as such. -/
inductive SchemaDay : List Char → ℤ → Prop
  | intro {a b c : List Char} {d : Date} (ha : Numeral 4 a d.year) (hb : Numeral 2 b d.month)
    (hc : Numeral 2 c d.day) (h : d.Real) : SchemaDay (a ++ '-' :: b ++ '-' :: c) d.ordinal

/-- The text is a time of day as XML Schema writes it, so many seconds after midnight. -/
inductive SchemaTime : List Char → ℚ → Prop
  | intro {a b c : List Char} {hour minute second : ℕ} (ha : Numeral 2 a hour)
    (hb : Numeral 2 b minute) (hc : Numeral 2 c second) (hhour : hour < 24)
    (hminute : minute < 60) (hsecond : second < 60) :
    SchemaTime (a ++ ':' :: b ++ ':' :: c) (3600 * hour + 60 * minute + second)

/-- A text with a sign at two places gives three numbers only. -/
theorem numerals_unique {sign : Char} {k l m : ℕ} {a b c a' b' c' : List Char}
    {i i' j j' n n' : ℕ} (ha : Numeral k a i) (ha' : Numeral k a' i') (hb : Numeral l b j)
    (hb' : Numeral l b' j') (hc : Numeral m c n) (hc' : Numeral m c' n')
    (h : a ++ sign :: b ++ sign :: c = a' ++ sign :: b' ++ sign :: c') :
    i = i' ∧ j = j' ∧ n = n' := by
  have hlength : (a ++ sign :: b).length = (a' ++ sign :: b').length := by
    simp [ha.length, ha'.length, hb.length, hb'.length]
  obtain ⟨hfront, hback⟩ := List.append_inj h hlength
  obtain ⟨rfl, hmiddle⟩ := List.append_inj hfront (ha.length.trans ha'.length.symm)
  obtain rfl := (List.cons.inj hmiddle).2
  obtain rfl := (List.cons.inj hback).2
  exact ⟨ha.unique ha', hb.unique hb', hc.unique hc'⟩

theorem schemaDay_unique : Relator.RightUnique SchemaDay := by
  intro cs m n h h'
  generalize hcs : cs = ds at h'
  cases h with
  | @intro _ _ _ d ha hb hc =>
    cases h' with
    | @intro _ _ _ d' ha' hb' hc' =>
      obtain ⟨hyear, hmonth, hday⟩ := numerals_unique ha ha' hb hb' hc hc' hcs
      have hsame : d = d' := by
        cases d
        cases d'
        congr
      rw [hsame]

theorem schemaTime_unique : Relator.RightUnique SchemaTime := by
  intro cs m n h h'
  generalize hcs : cs = ds at h'
  cases h with
  | intro ha hb hc =>
    cases h' with
    | intro ha' hb' hc' =>
      obtain ⟨rfl, rfl, rfl⟩ := numerals_unique ha ha' hb hb' hc hc' hcs
      rfl

theorem Spelled.real {f : DateFormat} {cs : List Char} {d : Date} (h : Spelled f cs (.date d)) :
    d.Real := by
  cases h with
  | date _ _ _ hreal => exact hreal

/-- Days that were read are compared as they are counted. -/
theorem Spelled.isBefore_iff {f : DateFormat} {cs cs' : List Char} {a b : Date}
    (ha : Spelled f cs (.date a)) (hb : Spelled f cs' (.date b)) :
    isBefore (.date a) (.date b) = true ↔ a.ordinal < b.ordinal := by
  rw [isBefore, decide_eq_true_eq]
  exact Date.number_lt_iff ha.real hb.real

/-- The written form of a day that was read is that of the day. -/
theorem Spelled.schemaDay {f : DateFormat} {cs : List Char} {d : Date}
    (h : Spelled f cs (.date d)) : SchemaDay (written (.date d)) d.ordinal := by
  cases h with
  | @date _ _ _ first second year ha hb hc hreal =>
    have hyear : (f.date first second year).year = year := by
      cases f <;> rfl
    have hlt := hc.lt
    have hmonth := hreal.month
    have hday := Date.day_le hreal
    exact .intro (numeral_padded (by decide) (by omega)) (numeral_padded (by decide) (by omega))
      (numeral_padded (by decide) (by omega)) hreal

end Timestamp

/-- The seconds after midnight. -/
def TimeOfDay.seconds (t : TimeOfDay) : ℚ :=
  60 * t.minutes

namespace Timestamp

theorem Spelled.seconds_mem {f : DateFormat} {cs : List Char} {t : TimeOfDay}
    (h : Spelled f cs (.time t)) : 0 ≤ t.seconds ∧ t.seconds < 86400 := by
  cases h with
  | @time _ _ hour minute _ _ hhour hminute =>
    have hlt : ((hour * 60 + minute : ℕ) : ℚ) < 1440 := by
      exact_mod_cast (by omega : hour * 60 + minute < 1440)
    have hnonneg : (0 : ℚ) ≤ (hour * 60 + minute : ℕ) := Nat.cast_nonneg _
    rw [TimeOfDay.seconds, TimeOfDay.minutes]
    constructor <;> linarith

theorem Spelled.schemaTime {f : DateFormat} {cs : List Char} {t : TimeOfDay}
    (h : Spelled f cs (.time t)) : SchemaTime (written (.time t)) t.seconds := by
  cases h with
  | @time _ _ hour minute ha hb hhour hminute =>
    have hzero : Numeral 2 ['0', '0'] 0 := ⟨rfl, by simp, rfl⟩
    have htime := SchemaTime.intro (numeral_padded (n := hour) (by decide) (by omega))
      (numeral_padded (n := minute) (by decide) (by omega)) hzero hhour hminute (by decide)
    have hseconds : (3600 * hour + 60 * minute + (0 : ℕ) : ℚ) =
        TimeOfDay.seconds ⟨hour, minute⟩ := by
      rw [TimeOfDay.seconds, TimeOfDay.minutes]
      push_cast
      linarith
    rwa [hseconds] at htime

end Timestamp

end ContextPolicy
