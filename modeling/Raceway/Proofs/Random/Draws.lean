import Mathlib
import Raceway.Proofs.Decimal.Arithmetic
import Raceway.Random.Stream
/-!
# The draws of a stream

A stream gives its draws one after the other. The draws are counted from zero, and the stream behind
some of them goes on with the next one. Each draw is a multiple of the least step below one, so that
it is never negative and never one.

## Main definitions

* `Raceway.Random.Stream.after`: the stream behind a number of draws.
* `Raceway.Random.Stream.draw`: the draw with a given number.
* `Raceway.Random.Stream.draws`: the next draws.

## Main results

* `Raceway.Random.Stream.after_succ`: one draw more.
* `Raceway.Random.Stream.draws_succ`: the first draw and those of the stream behind it.
* `Raceway.Random.Stream.exists_stands_draw`: draws lie between zero and one.
-/

namespace Raceway.Random.Stream

open Raceway.Decimal

/-- The stream behind a number of draws. -/
def after (s : Stream) : ℕ → Stream
  | 0 => s
  | n + 1 => s.unit.2.after n

/-- The draw with the given number, counted from zero. -/
def draw (s : Stream) (k : ℕ) : Float :=
  (s.after k).unit.1

/-- The next draws. -/
def draws (s : Stream) (n : ℕ) : List Float :=
  (List.range n).map s.draw

/-- The stream behind one draw more. -/
theorem after_succ (s : Stream) (n : ℕ) : s.after (n + 1) = (s.after n).unit.2 := by
  induction n generalizing s with
  | zero => rfl
  | succ n ih => exact ih s.unit.2

theorem draws_succ (s : Stream) (n : ℕ) : s.draws (n + 1) = s.unit.1 :: s.unit.2.draws n := by
  rw [draws, List.range_succ_eq_map, List.map_cons, List.map_map]
  rfl

/-! ### The range of a draw -/

/-- The upper bits of a word are less than a power of two. -/
theorem toNat_shiftRight_lt (draw : UInt64) : (draw >>> 11).toNat < 2 ^ 53 := by
  have hlt := draw.toNat_lt
  have heleven : (11 : UInt64).toNat % 64 = 11 := rfl
  rw [UInt64.toNat_shiftRight, heleven, Nat.shiftRight_eq_div_pow]
  omega

/-- The step of the draws, of which there are `2 ^ 53` in one. -/
theorem stands_step : Stands (Float.ofBits 0x3CA0000000000000).toModel.unpack (1 / 2 ^ 53) := by
  have hstep : Stands (Float.ofBits 0x3CA0000000000000).toModel.unpack
      ((2 ^ 52 : ℕ) * 2 ^ (-105 : ℤ)) :=
    .positive (by decide) ⟨by decide, by decide, .inr le_rfl⟩
  have hvalue : ((2 ^ 52 : ℕ) * 2 ^ (-105 : ℤ) : ℚ) = 1 / 2 ^ 53 := by norm_num
  rwa [hvalue] at hstep

/-- A draw lies between zero and one, and is not one. -/
theorem exists_stands_unit (s : Stream) :
    ∃ v, Stands s.unit.1.toModel.unpack v ∧ 0 ≤ v ∧ v < 1 := by
  have hlt := toNat_shiftRight_lt s.next.1
  obtain ⟨k, hk, hround⟩ := exists_stands_toFloat (s.next.1 >>> 11)
  have hk0 : 0 ≤ k := rounded_zero.mono hround (Nat.cast_nonneg _)
  have hk1 : k ≤ 2 ^ 53 - 1 := by
    have hfits : Fits (2 ^ 53 - 1) 0 := ⟨by decide, by decide, .inr (by decide)⟩
    have hle := hround.mono (rounded_self hfits) (by
      rw [zpow_zero, mul_one]
      exact_mod_cast Nat.le_sub_one_of_lt hlt)
    exact hle.trans (by norm_num)
  have hlast : ((2 ^ 53 - 1 : ℕ) * 2 ^ (-53 : ℤ) : ℚ) < 1 := by norm_num
  have hproduct : k * (1 / 2 ^ 53) ≤ (2 ^ 53 - 1 : ℕ) * 2 ^ (-53 : ℤ) := by
    calc k * (1 / 2 ^ 53) ≤ (2 ^ 53 - 1) * (1 / 2 ^ 53) :=
          mul_le_mul_of_nonneg_right hk1 (by positivity)
      _ = (2 ^ 53 - 1 : ℕ) * 2 ^ (-53 : ℤ) := by norm_num
  have hsmall : k * (1 / 2 ^ 53) < 2 ^ 1022 :=
    (hproduct.trans_lt hlast).trans_le (one_le_pow₀ one_le_two)
  obtain ⟨v, hv, hround⟩ := exists_stands_mul hk stands_step hk0 (by norm_num) hsmall
  have hfits : Fits (2 ^ 53 - 1) (-53) := ⟨by decide, by decide, .inr (by decide)⟩
  exact ⟨v, hv, rounded_zero.mono hround (by positivity),
    (hround.mono (rounded_self hfits) hproduct).trans_lt hlast⟩

theorem exists_stands_draw (s : Stream) (k : ℕ) :
    ∃ v, Stands (s.draw k).toModel.unpack v ∧ 0 ≤ v ∧ v < 1 :=
  (s.after k).exists_stands_unit

end Raceway.Random.Stream
