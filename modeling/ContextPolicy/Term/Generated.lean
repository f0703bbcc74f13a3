import ContextPolicy.Term

/-! Blank nodes for which a text has no label. -/
namespace ContextPolicy.Term

/-- The `n`-th of them: `n` in at least eight digits. -/
def generated (n : Nat) : Term :=
  let ds := Nat.toDigits 10 n
  .blank ("riog" ++ String.ofList (List.replicate (8 - ds.length) '0' ++ ds))

end ContextPolicy.Term
