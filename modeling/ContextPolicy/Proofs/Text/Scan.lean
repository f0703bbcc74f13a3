import Mathlib.Data.List.Basic

/-! Where a scan through a text stops. -/
namespace ContextPolicy.Text

variable {α : Type} {xs ys rest behind : List α}

/-- A scan takes what belongs to its class up to the first item that does not. -/
theorem scan_append {p : α → Bool} (hxs : ∀ x ∈ xs, p x = true)
    (hrest : ∀ x, rest.head? = some x → p x = false) :
    (xs ++ rest).takeWhile p = xs ∧ (xs ++ rest).dropWhile p = rest := by
  rw [List.takeWhile_append_of_pos hxs, List.dropWhile_append_of_pos hxs]
  cases rest with
  | nil => exact ⟨List.append_nil xs, rfl⟩
  | cons x rest =>
    have hx := Bool.eq_false_iff.mp (hrest x rfl)
    rw [List.takeWhile_cons_of_neg hx, List.dropWhile_cons_of_neg hx]
    exact ⟨List.append_nil xs, rfl⟩

/-- A separator that stands in neither of two lists ends both in the same place. -/
theorem append_cons_inj [DecidableEq α] {sep : α} (hxs : sep ∉ xs) (hys : sep ∉ ys)
    (h : xs ++ sep :: rest = ys ++ sep :: behind) : xs = ys ∧ rest = behind := by
  have hscan : ∀ {zs more : List α}, sep ∉ zs →
      (zs ++ sep :: more).takeWhile (· != sep) = zs := by
    intro zs more hzs
    refine (scan_append (fun z hz => bne_iff_ne.mpr (ne_of_mem_of_not_mem hz hzs)) ?_).1
    rintro z ⟨⟩
    exact bne_self_eq_false sep
  have heq : xs = ys := by rw [← hscan hxs, h, hscan hys]
  subst heq
  exact ⟨rfl, List.tail_eq_of_cons_eq (List.append_cancel_left h)⟩

end ContextPolicy.Text
