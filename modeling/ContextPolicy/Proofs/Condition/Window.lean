import Mathlib.Data.Rat.Floor
import Mathlib.Tactic.Linarith
import ContextPolicy.Proofs.Ask.Filter
import ContextPolicy.Proofs.Condition.Validity

/-! The moments that a window is open.

The query of a window compares a variable with two literals of XML Schema, which stand for
what the user wrote as the beginning and the end. The condition of a window of days holds from
the one to the other (`Ask.OpensOnDays`). That of a window of times of day holds at those that
are met on the way from its beginning forward around the clock before its end is passed, which
may be on the next day (`Ask.OpensAtTimes`). Every window that is compiled has such a query
(`Scheme.timeBody_opens`), and its text is read as that condition and no other
(`Ask.Filter.Reads.unique`). -/
namespace ContextPolicy

open Timestamp (SchemaDay SchemaTime Spelled)

/-! ### Literals -/

/-- The literal of a datatype stands for what its text is. -/
inductive Denotes {α : Type} (datatype : String) (lexical : List Char → α → Prop) : Term → α → Prop
  | intro {cs : List Char} {a : α} (h : lexical cs a) :
    Denotes datatype lexical (.typed (String.ofList cs) datatype) a

abbrev DenotesDay : Term → ℤ → Prop :=
  Denotes Names.Xsd.date SchemaDay

abbrev DenotesTime : Term → ℚ → Prop :=
  Denotes Names.Xsd.time SchemaTime

theorem denotes_unique {α : Type} {datatype : String} {lexical : List Char → α → Prop}
    (hunique : Relator.RightUnique lexical) : Relator.RightUnique (Denotes datatype lexical) := by
  rintro _ _ _ ⟨h⟩ h'
  generalize ht : Term.typed _ _ = t at h'
  obtain ⟨h'⟩ := h'
  obtain ⟨hcs, -⟩ := Term.literal.inj ht
  rw [String.ofList_inj.mp hcs] at h
  exact hunique h h'

/-! ### The clock -/

namespace TimeOfDay

/-- The seconds from one time of day forward to another, around the clock. -/
def forward (a b : ℚ) : ℚ :=
  (b - a) - 86400 * ⌊(b - a) / 86400⌋

theorem forward_of_le {a b : ℚ} (ha : 0 ≤ a) (hb : b < 86400) (h : a ≤ b) :
    forward a b = b - a := by
  have hfloor : ⌊(b - a) / 86400⌋ = 0 := by
    rw [Int.floor_eq_iff, le_div_iff₀ (by norm_num), div_lt_iff₀ (by norm_num)]
    push_cast
    constructor <;> linarith
  rw [forward, hfloor]
  simp

theorem forward_of_lt {a b : ℚ} (ha : a < 86400) (hb : 0 ≤ b) (h : b < a) :
    forward a b = b - a + 86400 := by
  have hfloor : ⌊(b - a) / 86400⌋ = -1 := by
    rw [Int.floor_eq_iff, le_div_iff₀ (by norm_num), div_lt_iff₀ (by norm_num)]
    push_cast
    constructor <;> linarith
  rw [forward, hfloor]
  push_cast
  linarith

/-- Going forward from `a`, one meets `t` no later than `b`. -/
theorem forward_le_iff {a b t : ℚ} (ha : 0 ≤ a ∧ a < 86400) (hb : 0 ≤ b ∧ b < 86400)
    (ht : 0 ≤ t ∧ t < 86400) :
    forward a t ≤ forward a b ↔ if b < a then a ≤ t ∨ t ≤ b else a ≤ t ∧ t ≤ b := by
  split_ifs with hab
  · rw [forward_of_lt ha.2 hb.1 hab]
    rcases lt_or_ge t a with hta | hta
    · rw [forward_of_lt ha.2 ht.1 hta]
      simp [hta.not_ge]
    · rw [forward_of_le ha.1 ht.2 hta]
      simp only [hta, true_or, iff_true]
      linarith
  · rw [forward_of_le ha.1 hb.2 (not_lt.mp hab)]
    rcases lt_or_ge t a with hta | hta
    · rw [forward_of_lt ha.2 ht.1 hta]
      simp only [hta.not_ge, false_and, iff_false]
      linarith
    · rw [forward_of_le ha.1 ht.2 hta]
      simp [hta]

end TimeOfDay

/-! ### Queries -/

/-- The query asks that a property of the time, under a name, meets a condition. -/
def Ask.Tests (q : Ask) (property name : String) (f : Ask.Filter) : Prop :=
  ∃ text, q = ⟨[.triple (.var "time") (.term (.named property)) (.var name), .filter text]⟩ ∧
    f.Reads text

/-- The query asks for a day, and its condition holds from one day to another. -/
def Ask.OpensOnDays (q : Ask) (a b : Date) : Prop :=
  ∃ x y, DenotesDay x a.ordinal ∧ DenotesDay y b.ordinal ∧
    ∃ f, f = ⟨[[⟨"now", .atLeast, x⟩, ⟨"now", .atMost, y⟩]]⟩ ∧ q.Tests Names.Context.now "now" f ∧
      ∀ value : String → ℤ,
        f.Holds DenotesDay value ↔ a.ordinal ≤ value "now" ∧ value "now" ≤ b.ordinal

/-- The query asks for a time of day, and its condition holds at those that are met, going forward
around the clock from one of them, no later than another. -/
def Ask.OpensAtTimes (q : Ask) (a b : TimeOfDay) : Prop :=
  ∃ x y, DenotesTime x a.seconds ∧ DenotesTime y b.seconds ∧
    ∃ f, (f = ⟨[[⟨"clock", .atLeast, x⟩, ⟨"clock", .atMost, y⟩]]⟩ ∨
        f = ⟨[[⟨"clock", .atLeast, x⟩], [⟨"clock", .atMost, y⟩]]⟩) ∧
      q.Tests Names.Context.timeOfDay "clock" f ∧
      ∀ value : String → ℚ, 0 ≤ value "clock" → value "clock" < 86400 →
        (f.Holds DenotesTime value ↔ TimeOfDay.forward a.seconds (value "clock") ≤
          TimeOfDay.forward a.seconds b.seconds)

namespace Scheme

/-- The text of a condition is that of its tests. -/
theorem windowFilter_eq (name : String) (first last : Timestamp) :
    windowFilter name first last = String.ofList
      (Ask.Filter.Test.written ⟨name, .atLeast, timestampLiteral first⟩ ++
        (if last.isBefore first then [' ', '|', '|', ' '] else [' ', '&', '&', ' ']) ++
        Ask.Filter.Test.written ⟨name, .atMost, timestampLiteral last⟩) := by
  apply String.toList_inj.mp
  rw [windowFilter]
  split <;> simp [Ask.Filter.Test.written, Ask.Filter.Relation.sign, Term.toText]

theorem readable_test {name : String} (hname : Ask.IsVariable name.toList)
    (r : Ask.Filter.Relation) (t : Timestamp) :
    (⟨name, r, timestampLiteral t⟩ : Ask.Filter.Test).Readable where
  name := hname
  bound := by
    cases t with
    | date => exact (by decide : Iri.Readable some Names.Xsd.date)
    | time => exact (by decide : Iri.Readable some Names.Xsd.time)
  isLiteral := rfl

theorem windowFilter_reads {name : String} (hname : Ask.IsVariable name.toList)
    (first last : Timestamp) : Ask.Filter.Reads
      ⟨if last.isBefore first then [[⟨name, .atLeast, timestampLiteral first⟩],
          [⟨name, .atMost, timestampLiteral last⟩]]
        else [[⟨name, .atLeast, timestampLiteral first⟩, ⟨name, .atMost, timestampLiteral last⟩]]⟩
      (windowFilter name first last) := by
  have hfirst := readable_test hname .atLeast first
  have hlast := readable_test hname .atMost last
  rw [windowFilter_eq]
  split
  · exact Ask.Filter.reads_or hfirst hlast
  · exact Ask.Filter.reads_and hfirst hlast

section Query
variable {f : DateFormat} {cs ds : List Char}

theorem timeAsk_days {a b : Date} (ha : Spelled f cs (.date a)) (hb : Spelled f ds (.date b))
    (hab : a.ordinal ≤ b.ordinal) : (timeAsk (.date a) (.date b)).OpensOnDays a b := by
  have hx : DenotesDay (timestampLiteral (.date a)) a.ordinal := .intro ha.schemaDay
  have hy : DenotesDay (timestampLiteral (.date b)) b.ordinal := .intro hb.schemaDay
  have hname : Ask.IsVariable "now".toList := by decide
  have hreads := windowFilter_reads hname (.date a) (.date b)
  have hbefore : Timestamp.isBefore (.date b) (.date a) ≠ true :=
    fun hlt => absurd ((hb.isBefore_iff ha).mp hlt) (not_lt.mpr hab)
  rw [if_neg hbefore] at hreads
  exact ⟨_, _, hx, hy, _, rfl, ⟨_, rfl, hreads⟩, fun value =>
    Ask.Filter.holds_and (denotes_unique Timestamp.schemaDay_unique) hx hy⟩

theorem timeAsk_times {a b : TimeOfDay} (ha : Spelled f cs (.time a))
    (hb : Spelled f ds (.time b)) : (timeAsk (.time a) (.time b)).OpensAtTimes a b := by
  have hx : DenotesTime (timestampLiteral (.time a)) a.seconds := .intro ha.schemaTime
  have hy : DenotesTime (timestampLiteral (.time b)) b.seconds := .intro hb.schemaTime
  have hunique : Relator.RightUnique DenotesTime := denotes_unique Timestamp.schemaTime_unique
  have hname : Ask.IsVariable "clock".toList := by decide
  have hreads := windowFilter_reads hname (.time a) (.time b)
  have hbefore : Timestamp.isBefore (.time b) (.time a) = true ↔ b.seconds < a.seconds := by
    simp [Timestamp.isBefore, TimeOfDay.seconds]
  refine ⟨_, _, hx, hy, _, ?_, ⟨_, rfl, hreads⟩, fun value hlow hhigh => ?_⟩
  · split <;> simp
  · rw [TimeOfDay.forward_le_iff ha.seconds_mem hb.seconds_mem ⟨hlow, hhigh⟩]
    simp only [hbefore]
    split
    · exact Ask.Filter.holds_or hunique hx hy
    · exact Ask.Filter.holds_and hunique hx hy

end Query

/-- Both ends of a window that is compiled were read, as moments of one kind, and its query is open
from the one to the other. -/
theorem timeBody_opens {s : Scheme} {window : TimeWindow} {node : Term} {n : ℕ} {body : BlockBody}
    (h : s.timeBody window node n = .ok body) :
    ∃ begin «end» first last, window = ⟨some begin, some «end»⟩ ∧
      Spelled s.dateFormat begin.toList first ∧ Spelled s.dateFormat «end».toList last ∧
      ((∃ a b, first = .date a ∧ last = .date b ∧ body.ask.OpensOnDays a b) ∨
        ∃ a b, first = .time a ∧ last = .time b ∧ body.ask.OpensAtTimes a b) := by
  obtain ⟨begin, «end», first, last, rfl, hbegin, hend, rfl⟩ := timeBody_ok h
  replace hbegin := Timestamp.read_eq_some_iff.mp hbegin
  replace hend := Timestamp.read_eq_some_iff.mp hend
  refine ⟨begin, «end», first, last, rfl, hbegin, hend, ?_⟩
  obtain ⟨first', last', hfirst, hlast, hspans⟩ :=
    timeRequirements_met.mp (timeBody_obeys.ok_iff.mp ⟨_, h⟩)
  obtain rfl : first' = first := hfirst.unique ⟨begin, rfl, hbegin⟩
  obtain rfl : last' = last := hlast.unique ⟨«end», rfl, hend⟩
  cases hspans with
  | @dates a b hab => exact .inl ⟨a, b, rfl, rfl, timeAsk_days hbegin hend hab⟩
  | times a b => exact .inr ⟨a, b, rfl, rfl, timeAsk_times hbegin hend⟩

/-- From ten in the evening to six in the morning it is open at eleven, and not at noon. -/
theorem timeBody_opens_midnight :
    let s : Scheme := ⟨.named "urn:policy", ∅, .dayMonthYear⟩
    ∃ body, s.timeBody ⟨some "22:00", some "06:00"⟩ (.blank "ac0") 1 = .ok body ∧
      ∃ f, body.ask.Tests Names.Context.timeOfDay "clock" f ∧
        f.Holds DenotesTime (fun _ => 23 * 3600) ∧ ¬f.Holds DenotesTime (fun _ => 12 * 3600) := by
  intro s
  obtain ⟨body, h⟩ : ∃ body, s.timeBody ⟨some "22:00", some "06:00"⟩ (.blank "ac0") 1 = .ok body :=
    ⟨_, rfl⟩
  refine ⟨body, h, ?_⟩
  obtain ⟨begin, «end», first, last, hwindow, hbegin, hend, hopens⟩ := timeBody_opens h
  cases hwindow
  obtain rfl : first = .time ⟨22, 0⟩ :=
    hbegin.unique (Timestamp.read_eq_some_iff.mp (by decide))
  obtain rfl : last = .time ⟨6, 0⟩ := hend.unique (Timestamp.read_eq_some_iff.mp (by decide))
  obtain ⟨a, b, ha, -⟩ | ⟨a, b, ha, hb, -, -, -, -, f, -, hf, hholds⟩ := hopens
  · cases ha
  · cases ha
    cases hb
    have hopen : ∀ t : ℚ, 0 ≤ t → t < 86400 →
        (f.Holds DenotesTime (fun _ => t) ↔ 22 * 3600 ≤ t ∨ t ≤ 6 * 3600) := by
      intro t hlow hhigh
      rw [hholds _ hlow hhigh, TimeOfDay.forward_le_iff _ _ ⟨hlow, hhigh⟩]
      all_goals norm_num [TimeOfDay.seconds, TimeOfDay.minutes]
    refine ⟨f, hf, (hopen _ ?_ ?_).mpr ?_, mt (hopen _ ?_ ?_).mp ?_⟩ <;> norm_num

end Scheme

end ContextPolicy
