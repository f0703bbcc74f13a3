import Mathlib
import ContextPolicy.Number.Decimal

/-! The numbers that doubles stand for.

A finite double stands for its mantissa times a power of two (`rational?`), and doubles are
compared as the numbers are (`lt_iff`, `le_iff`). They are compared by their exponents first,
and by their mantissas only if the exponents are the same. That is right as a mantissa is as
long as it can be, unless the exponent is as small as it can be (`Canonical`), so that a larger
exponent always makes a larger number (`compare_magnitude`). -/
namespace ContextPolicy.Number
open Float.Model (UnpackedFloat)

/-- The number that a double in its parts stands for; none for an infinity and for what is not
a number. -/
def value : UnpackedFloat → Option ℚ
  | .infinity _ | .notANumber => none
  | .zero _ => some 0
  | .finite .negative mantissa exponent _ => some (-(mantissa * 2 ^ exponent))
  | .finite .positive mantissa exponent _ => some (mantissa * 2 ^ exponent)

/-- The number that a double stands for. -/
def rational? (x : Float) : Option ℚ :=
  value x.toModel.unpack

theorem isSome_rational? (x : Float) : (rational? x).isSome = x.isFinite := by
  show (value x.toModel.unpack).isSome = x.toModel.unpack.isFinite
  cases x.toModel.unpack with
  | infinity | notANumber | zero => rfl
  | finite sign => cases sign <;> rfl

/-! ### Mantissas and exponents -/

/-- The mantissa has 53 bits; it has fewer only with the smallest exponent. -/
structure Canonical (mantissa : ℕ) (exponent : ℤ) : Prop where
  least : -1074 ≤ exponent
  lt : mantissa < 2 ^ 53
  full : exponent = -1074 ∨ 2 ^ 52 ≤ mantissa

theorem toNat_leading (mantissa : BitVec 52) :
    (1#1 ++ mantissa).toNat = 2 ^ 52 + mantissa.toNat := by
  have hone : (1#1).toNat = 1 := rfl
  rw [BitVec.toNat_append, Nat.shiftLeft_eq, hone, Nat.one_mul, Nat.or_comm,
    Nat.or_two_pow_eq_add_of_lt mantissa.isLt, Nat.add_comm]

theorem canonical_unpack {bits : BitVec 64} {sign : UnpackedFloat.Sign} {m : ℕ} {e : ℤ}
    {hm : 0 < m} (h : UnpackedFloat.unpack .binary64 bits = .finite sign m e hm) :
    Canonical m e := by
  have hbias : (Float.Model.Format.binary64.exponentBias : ℤ) = 1023 := rfl
  have hlt : (@UnpackedFloat.unpackMantissa .binary64 bits).toNat < 2 ^ 52 :=
    BitVec.isLt _
  simp only [UnpackedFloat.unpack, hbias] at h
  split at h
  · split at h <;> cases h
  split at h
  · next hzero =>
    split at h
    · cases h
    · cases h
      rw [hzero]
      exact ⟨by decide, by omega, .inl rfl⟩
  · next hzero =>
    have hpos : (@UnpackedFloat.unpackExponent .binary64 bits).toNat ≠ 0 :=
      fun h => hzero (BitVec.eq_of_toNat_eq h)
    cases h
    rw [toNat_leading]
    exact ⟨by omega, by omega, .inr (by omega)⟩

theorem magnitude_lt {m₁ m₂ : ℕ} {e₁ e₂ : ℤ} (h₁ : Canonical m₁ e₁) (h₂ : Canonical m₂ e₂)
    (he : e₁ < e₂) : (m₁ * 2 ^ e₁ : ℚ) < m₂ * 2 ^ e₂ := by
  have hfull : 2 ^ 52 ≤ m₂ := by
    have := h₁.least
    have := h₂.full
    omega
  have hlt : (m₁ : ℚ) < 2 ^ 53 := by exact_mod_cast h₁.lt
  have hle : (2 ^ 52 : ℚ) ≤ m₂ := by exact_mod_cast hfull
  calc (m₁ * 2 ^ e₁ : ℚ)
      < 2 ^ 53 * 2 ^ e₁ := mul_lt_mul_of_pos_right hlt (by positivity)
    _ = 2 ^ 52 * 2 ^ (e₁ + 1) := by
        rw [zpow_add_one₀ two_ne_zero]
        ring
    _ ≤ m₂ * 2 ^ e₂ :=
        mul_le_mul hle (zpow_le_zpow_right₀ one_le_two he) (by positivity) (by positivity)

/-- Numbers are compared by their exponents first. -/
theorem compare_magnitude {m₁ m₂ : ℕ} {e₁ e₂ : ℤ} (h₁ : Canonical m₁ e₁) (h₂ : Canonical m₂ e₂) :
    (compare e₁ e₂).then (compare m₁ m₂) = cmp (m₁ * 2 ^ e₁ : ℚ) (m₂ * 2 ^ e₂) := by
  rcases lt_trichotomy e₁ e₂ with he | rfl | he
  · rw [compare_lt_iff_lt.mpr he, (magnitude_lt h₁ h₂ he).cmp_eq_lt]
    rfl
  · have hmono : StrictMono fun m : ℕ => (m * 2 ^ e₁ : ℚ) := fun m n h =>
      mul_lt_mul_of_pos_right (by exact_mod_cast h) (by positivity)
    rw [compare_eq_iff_eq.mpr rfl]
    exact (cmp_eq_compare m₁ m₂).symm.trans (hmono.cmp_map_eq m₁ m₂).symm
  · rw [compare_gt_iff_gt.mpr he, (magnitude_lt h₂ h₁ he).cmp_eq_gt]
    rfl

/-! ### Order -/

theorem magnitude_pos {m : ℕ} (hm : 0 < m) (e : ℤ) : (0 : ℚ) < m * 2 ^ e :=
  mul_pos (by exact_mod_cast hm) (by positivity)

theorem cmp_neg_neg (p q : ℚ) : cmp (-p) (-q) = (cmp p q).swap := by
  rw [cmp_swap]
  exact (strictMono_id (α := ℚ)).neg.cmp_map_eq p q

/-- The parts of a double that stand for a number. -/
inductive Stands : UnpackedFloat → ℚ → Prop
  | zero (sign : UnpackedFloat.Sign) : Stands (.zero sign) 0
  | positive {m : ℕ} {e : ℤ} (hm : 0 < m) (h : Canonical m e) :
    Stands (.finite .positive m e hm) (m * 2 ^ e)
  | negative {m : ℕ} {e : ℤ} (hm : 0 < m) (h : Canonical m e) :
    Stands (.finite .negative m e hm) (-(m * 2 ^ e))

theorem stands_of_rational? {x : Float} {p : ℚ} (h : rational? x = some p) :
    Stands x.toModel.unpack p := by
  rw [rational?] at h
  cases hx : x.toModel.unpack with
  | infinity | notANumber =>
    rw [hx] at h
    cases h
  | zero sign =>
    rw [hx] at h
    cases h
    exact .zero sign
  | finite sign m e hm =>
    rw [hx] at h
    have hcanonical := canonical_unpack hx
    cases sign with
    | positive =>
      cases h
      exact .positive hm hcanonical
    | negative =>
      cases h
      exact .negative hm hcanonical

/-- Numbers in their parts are compared as numbers. -/
theorem Stands.compare {x y : UnpackedFloat} {p q : ℚ} (hx : Stands x p) (hy : Stands y q) :
    x.compare y = some (cmp p q) := by
  cases hx with
  | zero =>
    cases hy with
    | zero =>
      rw [cmp_self_eq_eq]
      rfl
    | positive hm =>
      rw [(magnitude_pos hm _).cmp_eq_lt]
      rfl
    | negative hm =>
      rw [(neg_lt_zero.mpr (magnitude_pos hm _)).cmp_eq_gt]
      rfl
  | positive hm h =>
    cases hy with
    | zero =>
      rw [(magnitude_pos hm _).cmp_eq_gt]
      rfl
    | positive hm' h' =>
      rw [← compare_magnitude h h']
      rfl
    | negative hm' =>
      rw [((neg_lt_zero.mpr (magnitude_pos hm' _)).trans (magnitude_pos hm _)).cmp_eq_gt]
      rfl
  | negative hm h =>
    cases hy with
    | zero =>
      rw [(neg_lt_zero.mpr (magnitude_pos hm _)).cmp_eq_lt]
      rfl
    | positive hm' =>
      rw [((neg_lt_zero.mpr (magnitude_pos hm _)).trans (magnitude_pos hm' _)).cmp_eq_lt]
      rfl
    | negative hm' h' =>
      rw [cmp_neg_neg, ← compare_magnitude h h']
      rfl

theorem compare_exact {x y : Float} {p q : ℚ} (hx : rational? x = some p)
    (hy : rational? y = some q) :
    x.toModel.unpack.compare y.toModel.unpack = some (cmp p q) :=
  (stands_of_rational? hx).compare (stands_of_rational? hy)

theorem lt_iff {x y : Float} {p q : ℚ} (hx : rational? x = some p) (hy : rational? y = some q) :
    x < y ↔ p < q := by
  have hlt : x < y ↔ (x.toModel.unpack.compare y.toModel.unpack == some .lt) = true :=
    decide_eq_true_iff
  rw [hlt, compare_exact hx hy, ← cmp_eq_lt_iff]
  simp

theorem le_iff {x y : Float} {p q : ℚ} (hx : rational? x = some p) (hy : rational? y = some q) :
    x ≤ y ↔ p ≤ q := by
  have hle : x ≤ y ↔ (x.toModel.unpack.compare y.toModel.unpack).any (·.isLE) = true :=
    decide_eq_true_iff
  rw [hle, compare_exact hx hy, ← not_lt, ← cmp_eq_gt_iff]
  simp [Ordering.isLE_iff_ne_gt]

/-! ### Bounds -/

/-- The numbers that coordinates and distances are compared with stand for themselves. -/
theorem rational?_bounds : rational? 0 = some 0 ∧
    (rational? (-90) = some (-90) ∧ rational? 90 = some 90) ∧
    rational? (-180) = some (-180) ∧ rational? 180 = some 180 := by
  have hzero : (0 : Float).toModel.unpack = .zero .positive := rfl
  have hsouth : (-90 : Float).toModel.unpack =
      .finite .negative (90 * 2 ^ 46) (-46) (by decide) := rfl
  have hnorth : (90 : Float).toModel.unpack =
      .finite .positive (90 * 2 ^ 46) (-46) (by decide) := rfl
  have hwest : (-180 : Float).toModel.unpack =
      .finite .negative (180 * 2 ^ 45) (-45) (by decide) := rfl
  have heast : (180 : Float).toModel.unpack =
      .finite .positive (180 * 2 ^ 45) (-45) (by decide) := rfl
  simp only [rational?, hzero, hsouth, hnorth, hwest, heast, value]
  norm_num

end ContextPolicy.Number
