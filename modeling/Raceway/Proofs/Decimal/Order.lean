import Mathlib
import Raceway.Proofs.Decimal.Double
/-!
# The order of doubles

A finite double stands for a rational number, positive, negative or zero. Its mantissa has all bits
unless its exponent is the least one, so the greater of two exponents belongs to the greater
magnitude. Doubles are compared by their exponents and mantissas, and therefore as the numbers that
they stand for.

## Main definitions

* `Raceway.Decimal.Fits`: the mantissas and exponents of doubles.
* `Raceway.Decimal.Stands`: the number that a double stands for.

## Main results

* `Raceway.Decimal.exists_stands`: every finite double stands for a number.
* `Raceway.Decimal.Stands.compare_eq`: doubles compare as their numbers do.
* `Raceway.Decimal.isFinite_of_le_of_le`: what lies between finite doubles is finite.
-/

namespace Raceway.Decimal

open Float.Model Float.Model.UnpackedFloat

/-! ### Mantissas and exponents -/

/-- A mantissa and an exponent as those of a double. The mantissa has all bits unless the exponent
is the least one. -/
structure Fits (m : ℕ) (e : ℤ) : Prop where
  lt : m < 2 ^ 53
  le : -1074 ≤ e
  full : e = -1074 ∨ 2 ^ 52 ≤ m

section

variable {m n : ℕ} {e f : ℤ}

/-- What a mantissa of all bits stands for, with a greater exponent, is greater. -/
theorem two_pow_mul_le (h : Fits n f) (hef : e < f) (he : -1074 ≤ e) :
    (2 : ℚ) ^ 53 * 2 ^ e ≤ n * 2 ^ f := by
  have hfull : (2 : ℚ) ^ 52 ≤ n := by
    exact_mod_cast h.full.resolve_left (by omega)
  calc (2 : ℚ) ^ 53 * 2 ^ e = 2 ^ 52 * 2 ^ (e + 1) := by
        rw [zpow_add_one₀ two_ne_zero]
        ring
    _ ≤ 2 ^ 52 * 2 ^ f :=
        mul_le_mul_of_nonneg_left (zpow_le_zpow_right₀ one_le_two hef) (by positivity)
    _ ≤ n * 2 ^ f := mul_le_mul_of_nonneg_right hfull (by positivity)

theorem Fits.lt_of_lt (h : Fits m e) (h' : Fits n f) (hef : e < f) :
    (m : ℚ) * 2 ^ e < n * 2 ^ f :=
  calc (m : ℚ) * 2 ^ e < 2 ^ 53 * 2 ^ e :=
        mul_lt_mul_of_pos_right (by exact_mod_cast h.lt) (by positivity)
    _ ≤ n * 2 ^ f := two_pow_mul_le h' hef h.le

/-- Comparing exponents first, and mantissas next, compares the products. -/
theorem Fits.compare_eq (h : Fits m e) (h' : Fits n f) :
    (compare e f).then (compare m n) = compare ((m : ℚ) * 2 ^ e) (n * 2 ^ f) := by
  rcases lt_trichotomy e f with hef | rfl | hef
  · rw [compare_lt_iff_lt.mpr hef, compare_lt_iff_lt.mpr (h.lt_of_lt h' hef)]
    rfl
  · have hmono : StrictMono fun k : ℕ => (k : ℚ) * 2 ^ e :=
      Nat.strictMono_cast.mul_const (by positivity)
    rw [compare_eq_iff_eq.mpr (rfl : e = e), ← cmp_eq_compare, ← cmp_eq_compare]
    exact (hmono.cmp_map_eq m n).symm
  · rw [compare_gt_iff_gt.mpr hef, compare_gt_iff_gt.mpr (h'.lt_of_lt h hef)]
    rfl

end

/-! ### Numbers -/

/-- The number that an unpacked double stands for. -/
inductive Stands : UnpackedFloat → ℚ → Prop
  | zero (s : Sign) : Stands (.zero s) 0
  | positive {m : ℕ} {e : ℤ} (h : 0 < m) (hfits : Fits m e) :
    Stands (.finite .positive m e h) (m * 2 ^ e)
  | negative {m : ℕ} {e : ℤ} (h : 0 < m) (hfits : Fits m e) :
    Stands (.finite .negative m e h) (-(m * 2 ^ e))

theorem fits_of_reads {n : ℕ} {s : Sign} {m : ℕ} {e : ℤ} {h : 0 < m}
    (hr : Reads n s (.finite s m e h)) : Fits m e := by
  have hm : mantissaField n < 2 ^ 52 := Nat.mod_lt _ (by decide)
  cases hr with
  | subnormal => exact ⟨by omega, by omega, by omega⟩
  | normal => exact ⟨by omega, by omega, by omega⟩

/-- Every finite double stands for a number. -/
theorem exists_stands {x : Float} (h : x.isFinite = true) : ∃ v, Stands x.toModel.unpack v := by
  have hr := reads_toModel x
  generalize Sign.ofBitVec _ = s at hr
  change x.toModel.unpack.isFinite = true at h
  generalize x.toModel.unpack = u at hr h
  cases hu : u with
  | infinity t => cases hu ▸ h
  | notANumber => cases hu ▸ h
  | zero t => exact ⟨_, .zero t⟩
  | finite t m e hm =>
    subst hu
    obtain rfl : t = s := by cases hr <;> rfl
    have hfits := fits_of_reads hr
    cases t with
    | positive => exact ⟨_, .positive hm hfits⟩
    | negative => exact ⟨_, .negative hm hfits⟩

theorem compare_neg (v w : ℚ) : compare (-v) (-w) = (compare v w).swap := by
  have hanti : StrictAnti fun v : ℚ => -v := fun _ _ => neg_lt_neg
  rw [← cmp_eq_compare, ← cmp_eq_compare, cmp_swap]
  exact hanti.cmp_map_eq v w

section

variable {u u' : UnpackedFloat} {x y z : Float} {v w : ℚ}

/-- Doubles compare as the numbers that they stand for. -/
theorem Stands.compare_eq (h : Stands u v) (h' : Stands u' w) :
    u.compare u' = some (compare v w) := by
  have hpos {m : ℕ} (e : ℤ) (hm : 0 < m) : (0 : ℚ) < m * 2 ^ e :=
    mul_pos (by exact_mod_cast hm) (by positivity)
  cases h with
  | zero s =>
    cases h' with
    | zero t => rw [compare_eq_iff_eq.mpr rfl]; rfl
    | positive hm => rw [compare_lt_iff_lt.mpr (hpos _ hm)]; rfl
    | negative hm => rw [compare_gt_iff_gt.mpr (neg_neg_of_pos (hpos _ hm))]; rfl
  | positive hm hfits =>
    cases h' with
    | zero t => rw [compare_gt_iff_gt.mpr (hpos _ hm)]; rfl
    | positive hn hfits' => exact congrArg some (hfits.compare_eq hfits')
    | negative hn =>
      rw [compare_gt_iff_gt.mpr ((neg_neg_of_pos (hpos _ hn)).trans (hpos _ hm))]
      rfl
  | negative hm hfits =>
    cases h' with
    | zero t => rw [compare_lt_iff_lt.mpr (neg_neg_of_pos (hpos _ hm))]; rfl
    | positive hn =>
      rw [compare_lt_iff_lt.mpr ((neg_neg_of_pos (hpos _ hm)).trans (hpos _ hn))]
      rfl
    | negative hn hfits' =>
      rw [compare_neg, ← hfits.compare_eq hfits']
      rfl

theorem lt_iff_compare : x < y ↔ x.toModel.unpack.compare y.toModel.unpack = some .lt :=
  decide_eq_true_iff.trans beq_iff_eq

theorem le_iff_compare :
    x ≤ y ↔ (x.toModel.unpack.compare y.toModel.unpack).any (·.isLE) = true :=
  decide_eq_true_iff

theorem Stands.lt_iff (h : Stands x.toModel.unpack v) (h' : Stands y.toModel.unpack w) :
    x < y ↔ v < w := by
  rw [lt_iff_compare, h.compare_eq h', Option.some.injEq, compare_lt_iff_lt]

theorem Stands.le_iff (h : Stands x.toModel.unpack v) (h' : Stands y.toModel.unpack w) :
    x ≤ y ↔ v ≤ w := by
  rw [le_iff_compare, h.compare_eq h', Option.any_some, Std.LawfulBCmp.isLE_iff_le]

/-- What lies between two finite doubles is finite. -/
theorem isFinite_of_le_of_le (hx : x.isFinite = true) (hz : z.isFinite = true) (hxy : x ≤ y)
    (hyz : y ≤ z) : y.isFinite = true := by
  obtain ⟨v, hv⟩ := exists_stands hx
  obtain ⟨w, hw⟩ := exists_stands hz
  rw [le_iff_compare] at hxy hyz
  change y.toModel.unpack.isFinite = true
  generalize x.toModel.unpack = ux at hv hxy
  generalize z.toModel.unpack = uz at hw hyz
  cases hy : y.toModel.unpack with
  | zero => rfl
  | finite => rfl
  | notANumber =>
    rw [hy] at hyz
    cases hyz
  | infinity s =>
    rw [hy] at hxy hyz
    cases s with
    | positive => cases hw <;> cases hyz
    | negative => cases hv <;> cases hxy

end

end Raceway.Decimal
