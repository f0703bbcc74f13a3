/-! Operations that change a value in place. Such an operation answers or fails, and leaves a
value behind in either case: one that fails half-way leaves what it has done until then. -/
namespace ContextPolicy

/-- What an operation answers, and the value that it leaves. -/
abbrev Change (ε α σ : Type) : Type :=
  Except ε α × σ

namespace Change
variable {ε α σ : Type}

/-- The answer with the value that is left, where only operations that succeed count. -/
def settled : Change ε α σ → Except ε (α × σ)
  | (.ok answer, s) => .ok (answer, s)
  | (.error fault, _) => .error fault

theorem settled_eq_ok_iff {c : Change ε α σ} {answer : α} {s : σ} :
    c.settled = .ok (answer, s) ↔ c = (.ok answer, s) := by
  obtain ⟨result, left⟩ := c
  cases result <;> simp [settled]

theorem settled_eq_error_iff {c : Change ε α σ} {fault : ε} :
    c.settled = .error fault ↔ c.1 = .error fault := by
  obtain ⟨result, left⟩ := c
  cases result <;> simp [settled]

end Change

end ContextPolicy
