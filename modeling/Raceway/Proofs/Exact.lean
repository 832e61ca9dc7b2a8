import Mathlib
import Raceway.Scalar
/-!
# Exact numbers

The formulas on gaps, read over the rational numbers: nothing is rounded but where a formula says
so, and a count that is made from a number in its range is that number.

## Main definitions

* `Raceway.nearest`: the nearest integer, a half going away from zero.

## Main results

* `Raceway.nearest_mono` and `Raceway.nearest_intCast`: rounding keeps the order, and the integers.
* `Raceway.toNat_toCount`: the count of an integer in its range.
-/

namespace Raceway

/-- The nearest integer, a half going away from zero. -/
def nearest (x : ℚ) : ℤ :=
  if x < 0 then -⌊-x + 1 / 2⌋ else ⌊x + 1 / 2⌋

instance : Scalar ℚ where
  ofCount n := n.toNat
  below x y := x < y
  round x := nearest x
  toCount x := UInt32.ofNat (min ⌊x⌋₊ (2 ^ 32 - 1))

variable {x y : ℚ}

theorem nearest_of_nonneg (h : 0 ≤ x) : nearest x = ⌊x + 1 / 2⌋ :=
  if_neg h.not_gt

theorem nearest_nonneg (h : 0 ≤ x) : 0 ≤ nearest x := by
  rw [nearest_of_nonneg h]
  exact Int.floor_nonneg.mpr (by positivity)

theorem nearest_mono : Monotone nearest := by
  intro x y hxy
  by_cases hy : y < 0
  · rw [nearest, nearest, if_pos (hxy.trans_lt hy), if_pos hy, neg_le_neg_iff]
    exact Int.floor_le_floor (by linarith)
  · rw [nearest_of_nonneg (not_lt.mp hy)]
    by_cases hx : x < 0
    · -- A negative number goes to zero or below, and the other one to zero or above.
      have hleft : 0 ≤ ⌊-x + 1 / 2⌋ := Int.floor_nonneg.mpr (by linarith)
      have hright : 0 ≤ ⌊y + 1 / 2⌋ := Int.floor_nonneg.mpr (by linarith)
      rw [nearest, if_pos hx]
      omega
    · rw [nearest_of_nonneg (not_lt.mp hx)]
      exact Int.floor_le_floor (by linarith)

@[simp] theorem nearest_intCast (k : ℤ) : nearest k = k := by
  have hhalf : ⌊(1 / 2 : ℚ)⌋ = 0 := by norm_num
  rw [nearest, ← Int.cast_neg, Int.floor_intCast_add, Int.floor_intCast_add, hhalf]
  split_ifs <;> omega

/-- Rounding adds at most one where less than one is added. -/
theorem nearest_add_le (hx : 0 ≤ x) (hy : 0 ≤ y) (hlt : y ≤ 1) :
    nearest (x + y) ≤ nearest x + 1 := by
  rw [nearest_of_nonneg hx, nearest_of_nonneg (add_nonneg hx hy), ← Int.floor_add_one]
  exact Int.floor_le_floor (by linarith)

namespace Scalar

theorem ofCount_eq (n : UInt32) : (ofCount n : ℚ) = n.toNat :=
  rfl

theorem round_eq_nearest (x : ℚ) : round x = (nearest x : ℚ) :=
  rfl

/-- The count of an integer in its range is that integer. -/
theorem toNat_toCount {k : ℤ} (hlow : 0 ≤ k) (hhigh : k < 2 ^ 32) :
    ((toCount (k : ℚ)).toNat : ℤ) = k := by
  have hcount : toCount (k : ℚ) = UInt32.ofNat (min ⌊(k : ℚ)⌋₊ (2 ^ 32 - 1)) := rfl
  obtain ⟨n, rfl⟩ := Int.eq_ofNat_of_zero_le hlow
  have hn : n < 2 ^ 32 := by exact_mod_cast hhigh
  rw [hcount, Int.cast_natCast, Nat.floor_natCast, min_eq_left (by omega),
    UInt32.toNat_ofNat_of_lt' hn]

end Scalar

end Raceway
