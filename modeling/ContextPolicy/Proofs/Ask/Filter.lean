import Mathlib.Logic.Relator
import ContextPolicy.Proofs.Ask.Lexing

/-! The conditions of filters, as text and as what they test.

A condition compares variables with terms. Comparisons are joined by `&&` and by `||`, and the
first of these joins closer, so that a condition is a list of alternatives, each of them a list
of tests (`Filter`). A text is read as one condition only (`Filter.Reads.unique`). The condition
holds if all tests of an alternative do, whatever ordered values the variables have and the
terms stand for (`Filter.Holds`). -/
namespace ContextPolicy.Ask

open Turtle (Separated)

namespace Filter

inductive Relation where
  | atLeast
  | atMost
deriving DecidableEq, Repr

/-- A variable compared with a term. -/
structure Test where
  name : String
  relation : Relation
  bound : Term
deriving DecidableEq, Repr

inductive Token where
  | slot (s : Slot)
  | relation (r : Relation)
  | and
  | or
deriving DecidableEq, Repr

end Filter

/-- Alternatives, and the tests of each. -/
structure Filter where
  alternatives : List (List Filter.Test)
deriving DecidableEq, Repr

namespace Filter

/-! ### Reading -/

/-- The token that a text begins with, and what follows it. -/
def next : Char → List Char → Option (Token × List Char)
  | '>', '=' :: rest => some (.relation .atLeast, rest)
  | '<', '=' :: rest => some (.relation .atMost, rest)
  | '&', '&' :: rest => some (.and, rest)
  | '|', '|' :: rest => some (.or, rest)
  | c, rest => (nextSlot c rest).map fun (s, left) => (.slot s, left)

/-- The tokens of a text, with or without spaces between them. -/
inductive Lexed : List Char → List Token → Prop
  | nil : Lexed [] []
  | space {cs : List Char} {ts : List Token} (h : Lexed cs ts) : Lexed (' ' :: cs) ts
  | token {c : Char} {rest left : List Char} {t : Token} {ts : List Token}
    (hnext : next c rest = some (t, left)) (h : Lexed left ts) : Lexed (c :: rest) (t :: ts)

/-- The alternatives that tokens stand for: after `&&` the first alternative of what follows goes
on, after `||` another one begins. -/
def alternatives? : List Token → Option (List (List Test))
  | [.slot (.var x), .relation r, .slot (.term t)] => some [[⟨x, r, t⟩]]
  | .slot (.var x) :: .relation r :: .slot (.term t) :: .and :: rest =>
    match alternatives? rest with
    | some (tests :: more) => some ((⟨x, r, t⟩ :: tests) :: more)
    | _ => none
  | .slot (.var x) :: .relation r :: .slot (.term t) :: .or :: rest =>
    (alternatives? rest).map ([⟨x, r, t⟩] :: ·)
  | _ => none

/-- The condition that a text is read as. -/
def Reads (f : Filter) (text : String) : Prop :=
  ∃ ts, Lexed text.toList ts ∧ alternatives? ts = some f.alternatives

theorem next_space (rest : List Char) : next ' ' rest = none :=
  rfl

theorem Lexed.unique {cs : List Char} {ts us : List Token} (h : Lexed cs ts)
    (h' : Lexed cs us) : ts = us := by
  induction h generalizing us with
  | nil =>
    cases h'
    rfl
  | space _ ih =>
    cases h' with
    | space h' => exact ih h'
    | token hnext => cases (next_space _).symm.trans hnext
  | token hnext _ ih =>
    cases h' with
    | space => cases (next_space _).symm.trans hnext
    | token hnext' h' =>
      obtain ⟨rfl, rfl⟩ := Prod.mk.inj (Option.some.inj (hnext.symm.trans hnext'))
      rw [ih h']

theorem Reads.unique {f g : Filter} {text : String} (h : f.Reads text) (h' : g.Reads text) :
    f = g := by
  obtain ⟨ts, hts, hf⟩ := h
  obtain ⟨us, hus, hg⟩ := h'
  obtain rfl := hts.unique hus
  cases f
  cases g
  exact congrArg Filter.mk (Option.some.inj (hf.symm.trans hg))

/-! ### Texts of conditions -/

theorem Lexed.slot {s : Slot} {rest : List Char} {ts : List Token} (h : s.Readable)
    (hiri : s.written.head? ≠ some '<') (hrest : Separated rest) (hts : Lexed rest ts) :
    Lexed (s.written ++ rest) (.slot s :: ts) := by
  obtain ⟨c, cs, hwritten, hc, hnext⟩ := nextSlot_written h
  rw [hwritten] at hiri ⊢
  have hslot : next c (cs ++ rest) = (nextSlot c (cs ++ rest)).map fun (s, left) =>
      (.slot s, left) := by
    simp only [List.mem_cons, List.not_mem_nil, or_false] at hc
    obtain rfl | rfl | rfl | rfl := hc
    · rfl
    · exact absurd rfl hiri
    · rfl
    · rfl
  rw [hnext rest hrest] at hslot
  exact .token hslot hts

def Relation.sign : Relation → List Char
  | atLeast => ['>', '=']
  | atMost => ['<', '=']

def Test.written (t : Test) : List Char :=
  '?' :: t.name.toList ++ ' ' :: t.relation.sign ++ ' ' :: t.bound.written

def Test.tokens (t : Test) : List Token :=
  [.slot (.var t.name), .relation t.relation, .slot (.term t.bound)]

/-- A variable and a literal that there are tokens for. -/
structure Test.Readable (t : Test) : Prop where
  name : IsVariable t.name.toList
  bound : t.bound.Readable some
  isLiteral : t.bound.isLiteral = true

theorem Lexed.test {t : Test} {rest : List Char} {ts : List Token} (h : t.Readable)
    (hrest : Separated rest) (hts : Lexed rest ts) : Lexed (t.written ++ rest) (t.tokens ++ ts) := by
  have hquote : (Slot.term t.bound).written.head? ≠ some '<' := by
    cases hb : t.bound with
    | literal value datatype lang =>
      show (Term.writtenValue value.toList ++ _).head? ≠ _
      rw [Term.writtenValue, Term.quotes]
      split <;> simp
    | named | blank =>
      have hliteral := h.isLiteral
      rw [hb] at hliteral
      cases hliteral
  have hbehind : Lexed (t.relation.sign ++ ' ' :: (t.bound.written ++ rest))
      (.relation t.relation :: .slot (.term t.bound) :: ts) := by
    have hvalue := (Lexed.slot (s := .term t.bound) h.bound hquote hrest hts).space
    cases t.relation <;> exact .token rfl hvalue
  have hwhole := Lexed.slot (s := .var t.name) h.name (by simp [Slot.written])
    (separated_space _) hbehind.space
  simpa [Test.written, Test.tokens, Slot.written] using hwhole

section
variable {first last : Test}

/-- Two tests with the double sign of a token between them. -/
theorem lexed_joined {sign : Char} {joint : Token}
    (hjoint : ∀ rest, next sign (sign :: rest) = some (joint, rest)) (hfirst : first.Readable)
    (hlast : last.Readable) : Lexed (first.written ++ [' ', sign, sign, ' '] ++ last.written)
      (first.tokens ++ joint :: last.tokens) := by
  have hend := Lexed.test hlast separated_nil .nil
  have hbehind : Lexed (' ' :: sign :: sign :: ' ' :: (last.written ++ []))
      (joint :: (last.tokens ++ [])) :=
    .space (.token (hjoint _) (.space hend))
  simpa only [List.append_nil, List.append_assoc, List.cons_append, List.nil_append] using
    Lexed.test hfirst (separated_space _) hbehind

theorem reads_and (hfirst : first.Readable) (hlast : last.Readable) : Reads ⟨[[first, last]]⟩
    (String.ofList (first.written ++ [' ', '&', '&', ' '] ++ last.written)) := by
  refine ⟨first.tokens ++ .and :: last.tokens, ?_, rfl⟩
  rw [String.toList_ofList]
  exact lexed_joined (fun _ => rfl) hfirst hlast

theorem reads_or (hfirst : first.Readable) (hlast : last.Readable) : Reads ⟨[[first], [last]]⟩
    (String.ofList (first.written ++ [' ', '|', '|', ' '] ++ last.written)) := by
  refine ⟨first.tokens ++ .or :: last.tokens, ?_, rfl⟩
  rw [String.toList_ofList]
  exact lexed_joined (fun _ => rfl) hfirst hlast

end

/-! ### Meaning -/

section Meaning
variable {α : Type} [LE α]

def Test.Holds (t : Test) (denotes : Term → α → Prop) (value : String → α) : Prop :=
  ∃ bound, denotes t.bound bound ∧
    match t.relation with
    | .atLeast => bound ≤ value t.name
    | .atMost => value t.name ≤ bound

/-- The condition holds for the values of variables, terms standing for what they denote. -/
def Holds (f : Filter) (denotes : Term → α → Prop) (value : String → α) : Prop :=
  ∃ tests ∈ f.alternatives, ∀ t ∈ tests, t.Holds denotes value

variable {denotes : Term → α → Prop} {value : String → α} {name : String} {x y : Term} {m n : α}

theorem Test.holds_iff {t : Test} (hunique : Relator.RightUnique denotes)
    (ht : denotes t.bound m) : t.Holds denotes value ↔
      match t.relation with
      | .atLeast => m ≤ value t.name
      | .atMost => value t.name ≤ m := by
  constructor
  · rintro ⟨bound, hbound, hle⟩
    rwa [hunique ht hbound]
  · exact fun hle => ⟨m, ht, hle⟩

section
variable (hunique : Relator.RightUnique denotes) (hx : denotes x m) (hy : denotes y n)
include hunique hx hy

/-- Between two bounds. -/
theorem holds_and : Holds ⟨[[⟨name, .atLeast, x⟩, ⟨name, .atMost, y⟩]]⟩ denotes value ↔
    m ≤ value name ∧ value name ≤ n := by
  have hfirst : (⟨name, .atLeast, x⟩ : Test).Holds denotes value ↔ m ≤ value name :=
    Test.holds_iff hunique hx
  have hlast : (⟨name, .atMost, y⟩ : Test).Holds denotes value ↔ value name ≤ n :=
    Test.holds_iff hunique hy
  simp [Holds, hfirst, hlast]

/-- Beyond one of two bounds. -/
theorem holds_or : Holds ⟨[[⟨name, .atLeast, x⟩], [⟨name, .atMost, y⟩]]⟩ denotes value ↔
    m ≤ value name ∨ value name ≤ n := by
  have hfirst : (⟨name, .atLeast, x⟩ : Test).Holds denotes value ↔ m ≤ value name :=
    Test.holds_iff hunique hx
  have hlast : (⟨name, .atMost, y⟩ : Test).Holds denotes value ↔ value name ≤ n :=
    Test.holds_iff hunique hy
  simp [Holds, hfirst, hlast]

end

end Meaning

end Filter

end ContextPolicy.Ask
