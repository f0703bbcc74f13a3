/-! Sets of characters, given by ranges of code points. A property of characters is
a table of such ranges, and `covers_iff` says what being in a table means. -/
namespace ContextPolicy.Text

/-- Ranges of code points, both ends included. -/
abbrev Ranges := List (Nat × Nat)

/-- Whether a character lies in one of the ranges. -/
def Ranges.covers (ranges : Ranges) (c : Char) : Bool :=
  ranges.any fun r => r.1 ≤ c.toNat && c.toNat ≤ r.2

theorem Ranges.covers_iff (ranges : Ranges) (c : Char) :
    ranges.covers c = true ↔ ∃ r ∈ ranges, r.1 ≤ c.toNat ∧ c.toNat ≤ r.2 := by
  simp [Ranges.covers]

end ContextPolicy.Text
