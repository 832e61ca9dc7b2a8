import Mathlib
import Raceway.Proofs.Decimal.Order
import Raceway.Proofs.Decimal.Rounding
/-!
# Integral doubles

A finite double stands for its magnitude, taken with its sign. A double is converted to an integer
exactly if it stands for that integer, so the conversion is exact and leaves out every double that
is fractional, infinite or undefined.

## Main results

* `Raceway.Decimal.stands_iff`: the number that a double stands for, by its sign and its magnitude.
* `Raceway.Decimal.integer?_eq_some_iff`: the conversion to an integer.
-/

namespace Raceway.Decimal

open Float.Model Float.Model.UnpackedFloat

/-! ### Magnitudes -/

namespace Binary

variable {b : Binary} {n : ℕ}

theorem value_nonneg (b : Binary) : 0 ≤ b.value := by
  rw [value]
  positivity

/-- A magnitude is converted to the natural number that it stands for. -/
theorem nat?_eq_some_iff : b.nat? = some n ↔ b.value = n := by
  rw [nat?, value, zpow_eq_div]
  split_ifs with hexp hmod
  · have hneg : (-b.exp).toNat = 0 := by omega
    rw [Option.some.injEq, hneg, pow_zero, div_one]
    exact_mod_cast Iff.rfl
  all_goals
    have hpos : b.exp.toNat = 0 := by omega
    have hpow : ((2 ^ (-b.exp).toNat : ℕ) : ℚ) ≠ 0 := by positivity
    rw [hpos, pow_zero, mul_one_div]
  · rw [Option.some.injEq, ← Nat.cast_ofNat (R := ℚ), ← Nat.cast_pow,
      ← Nat.cast_div (Nat.dvd_of_mod_eq_zero hmod) hpow, Nat.cast_inj]
  · refine ⟨by rintro ⟨⟩, fun h => absurd (Nat.mod_eq_zero_of_dvd ⟨n, ?_⟩) hmod⟩
    rw [← Nat.cast_ofNat (R := ℚ), ← Nat.cast_pow, div_eq_iff hpow, mul_comm] at h
    exact_mod_cast h

end Binary

/-! ### Doubles -/

/-- A double is negative if its sign bit is set. -/
theorem negativeDouble_iff (x : Float) :
    negativeDouble x = true ↔
      Sign.ofBitVec (@unpackSign doubleFormat x.toBits.toBitVec) = .negative := by
  have hsign := toNat_unpackSign x.toBits.toBitVec
  have hlt := x.toBits.toNat_lt
  change _ = x.toBits.toNat / 2 ^ 63 at hsign
  rw [negativeDouble, decide_eq_true_iff]
  cases hs : Sign.ofBitVec (@unpackSign doubleFormat x.toBits.toBitVec) with
  | positive =>
    rw [hs] at hsign
    change 0 = _ at hsign
    exact ⟨fun h => absurd h (by omega), by rintro ⟨⟩⟩
  | negative =>
    rw [hs] at hsign
    change 1 = _ at hsign
    exact ⟨fun _ => rfl, fun _ => by omega⟩

/-- The magnitude of a double with its sign. -/
def signedValue (x : Float) : ℚ :=
  if negativeDouble x then -(Binary.ofDouble x).value else (Binary.ofDouble x).value

/-- A finite double stands for its magnitude with its sign. -/
theorem stands_signedValue {x : Float} (h : x.isFinite = true) :
    Stands x.toModel.unpack (signedValue x) := by
  have hr := reads_toModel x
  have hsign := negativeDouble_iff x
  change x.toModel.unpack.isFinite = true at h
  rw [signedValue, Binary.ofDouble, Binary.ofDoubleBits_eq]
  generalize Sign.ofBitVec _ = s at hr hsign
  generalize x.toModel.unpack = u at hr h ⊢
  cases hr with
  | infinity => cases h
  | nan => cases h
  | zero he hm =>
    have hzero : ((mantissaField x.toBits.toNat : ℕ) : ℚ) * 2 ^ (-1074 : ℤ) = 0 := by
      rw [hm, Nat.cast_zero, zero_mul]
    rw [if_pos he, Binary.value, hzero, neg_zero, ite_self]
    exact .zero s
  | subnormal m e hpos he hm hx =>
    have hread : Reads x.toBits.toNat s (.finite s m e hpos) := .subnormal m e hpos he hm hx
    have hfits := fits_of_reads hread
    rw [if_pos he, Binary.value, ← hm, ← hx]
    cases s with
    | positive => rw [if_neg (by rw [hsign]; rintro ⟨⟩)]; exact .positive hpos hfits
    | negative => rw [if_pos (hsign.mpr rfl)]; exact .negative hpos hfits
  | normal m e hpos h0 he hm hx =>
    have hread : Reads x.toBits.toNat s (.finite s m e hpos) := .normal m e hpos h0 he hm hx
    have hfits := fits_of_reads hread
    have hexp : (-1074 + (exponentField x.toBits.toNat - 1 : ℕ) : ℤ) = e := by omega
    rw [if_neg h0.ne', Binary.value, ← hm, hexp]
    cases s with
    | positive => rw [if_neg (by rw [hsign]; rintro ⟨⟩)]; exact .positive hpos hfits
    | negative => rw [if_pos (hsign.mpr rfl)]; exact .negative hpos hfits

/-- A double stands for one number at most. -/
theorem Stands.unique {u : UnpackedFloat} {v w : ℚ} (h : Stands u v) (h' : Stands u w) :
    v = w := by
  cases h <;> cases h' <;> rfl

theorem Stands.isFinite {x : Float} {v : ℚ} (h : Stands x.toModel.unpack v) :
    x.isFinite = true := by
  change x.toModel.unpack.isFinite = true
  generalize x.toModel.unpack = u at h
  cases h <;> rfl

/-- The number that a double stands for. -/
theorem stands_iff {x : Float} {v : ℚ} :
    Stands x.toModel.unpack v ↔ x.isFinite = true ∧ signedValue x = v := by
  constructor
  · exact fun h => ⟨h.isFinite, (stands_signedValue h.isFinite).unique h⟩
  · rintro ⟨h, rfl⟩
    exact stands_signedValue h

/-- A double is converted to the integer that it stands for. -/
theorem integer?_eq_some_iff {x : Float} {n : ℤ} :
    integer? x = some n ↔ Stands x.toModel.unpack n := by
  have hmagnitude (k : ℤ) : (do let m ← (Binary.ofDouble x).nat?; pure (m : ℤ)) = some k ↔
      (Binary.ofDouble x).value = k := by
    simp only [Option.bind_eq_bind, Option.pure_def, Option.bind_eq_some_iff, Option.some.injEq,
      Binary.nat?_eq_some_iff]
    constructor
    · rintro ⟨m, hm, rfl⟩
      exact_mod_cast hm
    · intro h
      have hk : 0 ≤ k := by exact_mod_cast h ▸ (Binary.ofDouble x).value_nonneg
      lift k to ℕ using hk
      exact ⟨k, by exact_mod_cast h, rfl⟩
  rw [integer?, stands_iff, signedValue]
  by_cases hfinite : x.isFinite = true
  · rw [if_pos hfinite, and_iff_right hfinite]
    cases negativeDouble x with
    | true =>
      simp only [if_true, Option.map_eq_some_iff, hmagnitude]
      constructor
      · rintro ⟨k, hk, rfl⟩
        rw [hk, Int.cast_neg]
      · intro h
        exact ⟨-n, by rw [Int.cast_neg, ← h, neg_neg], neg_neg n⟩
    | false =>
      simp only [Bool.false_eq_true, if_false, Option.map_eq_some_iff, hmagnitude]
      exact ⟨fun ⟨k, hk, heq⟩ => heq ▸ hk, fun h => ⟨n, h, rfl⟩⟩
  · rw [if_neg hfinite]
    exact ⟨by rintro ⟨⟩, fun h => absurd h.1 hfinite⟩

end Raceway.Decimal
