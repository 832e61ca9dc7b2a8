import Mathlib
import Raceway.Decimal.Shortest
import Raceway.Proofs.Decimal.Double
/-!
# Reading back what identifies a double

The decimals that round to a magnitude of binary format fill an interval around it, from halfway to
the magnitude below to halfway to the one above. Every decimal that the selection of the fewest
digits offers lies in that interval, and the double nearest to any number of the interval is the one
that has the magnitude.

## Main definitions

* `Raceway.Decimal.Binary.Legal`: the magnitudes of finite doubles other than zero.
* `Raceway.Decimal.Binary.Rounds`: a number lies in the interval of a magnitude.
* `Raceway.Decimal.Binary.bits`: a magnitude as the bits of a double.

## Main results

* `Raceway.Decimal.Binary.Legal.nearestBits_eq`: rounding a number of the interval.
* `Raceway.Decimal.Binary.Legal.rounds_shortest`: the selected decimal lies in the interval.
* `Raceway.Decimal.nearestDouble_eq`: the double nearest to a number of its interval.
-/

namespace Raceway.Decimal

/-! ### Exact comparison -/

theorem zpow_eq_div (a : ℚ) (i : ℤ) : a ^ i = a ^ i.toNat / a ^ (-i).toNat := by
  rcases le_total 0 i with h | h
  · rw [show (-i).toNat = 0 by omega, pow_zero, div_one, ← zpow_natCast, Int.toNat_of_nonneg h]
  · rw [show i.toNat = 0 by omega, pow_zero, one_div, ← zpow_natCast,
      Int.toNat_of_nonneg (by omega), zpow_neg, inv_inv]

/-- Scaled numbers compare as the rational numbers that they stand for. -/
theorem compareScaled_eq (a : ℕ) (i : ℤ) (b : ℕ) (j : ℤ) :
    compareScaled a i b j = compare ((a : ℚ) * 10 ^ i) ((b : ℚ) * 2 ^ j) := by
  have hc : (0 : ℚ) < 10 ^ (-i).toNat * 2 ^ (-j).toNat := by positivity
  have hl : (a : ℚ) * 10 ^ i * (10 ^ (-i).toNat * 2 ^ (-j).toNat) =
      ((a * 10 ^ i.toNat * 2 ^ (-j).toNat : ℕ) : ℚ) := by
    rw [zpow_eq_div 10 i]
    push_cast
    field_simp
  have hr : (b : ℚ) * 2 ^ j * (10 ^ (-i).toNat * 2 ^ (-j).toNat) =
      ((b * 2 ^ j.toNat * 10 ^ (-i).toNat : ℕ) : ℚ) := by
    rw [zpow_eq_div 2 j]
    push_cast
    field_simp
  rcases lt_trichotomy ((a : ℚ) * 10 ^ i) ((b : ℚ) * 2 ^ j) with h | h | h
  · rw [compare_lt_iff_lt.mpr h]
    have h' := mul_lt_mul_of_pos_right h hc
    rw [hl, hr] at h'
    exact compare_lt_iff_lt.mpr (by exact_mod_cast h')
  · rw [compare_eq_iff_eq.mpr h]
    have h' := congrArg (· * ((10 : ℚ) ^ (-i).toNat * 2 ^ (-j).toNat)) h
    simp only [hl, hr] at h'
    exact compare_eq_iff_eq.mpr (by exact_mod_cast h')
  · rw [compare_gt_iff_gt.mpr h]
    have h' := mul_lt_mul_of_pos_right h hc
    rw [hl, hr] at h'
    exact compare_gt_iff_gt.mpr (by exact_mod_cast h')

theorem scaledLe_iff (a : ℕ) (i : ℤ) (b : ℕ) : scaledLe a i b = true ↔ (a : ℚ) * 2 ^ i ≤ b := by
  have hc : (0 : ℚ) < 2 ^ (-i).toNat := by positivity
  rw [scaledLe, decide_eq_true_iff, zpow_eq_div, ← mul_div_assoc, div_le_iff₀ hc]
  exact_mod_cast Iff.rfl

/-- The exponent of two of a positive quotient. -/
theorem binaryExponent_spec {num den : ℕ} (hn : 0 < num) (hd : 0 < den) :
    (2 : ℚ) ^ binaryExponent num den ≤ num / den ∧
      (num / den : ℚ) < 2 ^ (binaryExponent num den + 1) := by
  have hd' : (0 : ℚ) < den := by exact_mod_cast hd
  have hnl : (2 : ℚ) ^ (num.log2 : ℤ) ≤ num := by
    exact_mod_cast Nat.log2_self_le hn.ne'
  have hnu : (num : ℚ) < 2 ^ ((num.log2 : ℤ) + 1) := by
    exact_mod_cast Nat.lt_log2_self
  have hdl : (2 : ℚ) ^ (den.log2 : ℤ) ≤ den := by
    exact_mod_cast Nat.log2_self_le hd.ne'
  have hdu : (den : ℚ) < 2 ^ ((den.log2 : ℤ) + 1) := by
    exact_mod_cast Nat.lt_log2_self
  simp only [binaryExponent]
  split_ifs with h
  · rw [scaledLe_iff] at h
    refine ⟨(le_div_iff₀ hd').mpr (by rwa [mul_comm]), (div_lt_iff₀ hd').mpr (hnu.trans_le ?_)⟩
    calc (2 : ℚ) ^ ((num.log2 : ℤ) + 1)
        = 2 ^ ((num.log2 : ℤ) - den.log2 + 1) * 2 ^ (den.log2 : ℤ) := by
          rw [← zpow_add₀ two_ne_zero]
          congr 1
          omega
      _ ≤ 2 ^ ((num.log2 : ℤ) - den.log2 + 1) * den := by gcongr
  · rw [scaledLe_iff, not_le] at h
    refine ⟨(le_div_iff₀ hd').mpr (le_trans ?_ hnl), (div_lt_iff₀ hd').mpr ?_⟩
    · calc (2 : ℚ) ^ ((num.log2 : ℤ) - den.log2 - 1) * den
          ≤ 2 ^ ((num.log2 : ℤ) - den.log2 - 1) * 2 ^ ((den.log2 : ℤ) + 1) := by gcongr
        _ = 2 ^ (num.log2 : ℤ) := by
          rw [← zpow_add₀ two_ne_zero]
          congr 1
          omega
    · rwa [sub_add_cancel, mul_comm]

/-- The quotient rounds to any integer within half a unit, which has to be even at the ends. -/
theorem roundDiv_eq {num den m : ℕ} (hd : 0 < den) (hl : 2 * (m * den) ≤ 2 * num + den)
    (hu : 2 * num ≤ 2 * (m * den) + den)
    (he : m % 2 = 0 ∨ (2 * (m * den) ≠ 2 * num + den ∧ 2 * num ≠ 2 * (m * den) + den)) :
    roundDiv num den = m := by
  have hq : den * (num / den) + num % den = num := Nat.div_add_mod num den
  have hr : num % den < den := Nat.mod_lt _ hd
  simp only [roundDiv]
  generalize num / den = q at *
  generalize num % den = r at *
  rw [Nat.mul_comm] at hq
  rcases Nat.lt_trichotomy m q with h | rfl | h
  · have hk := Nat.mul_le_mul_right den (Nat.succ_le_of_lt h)
    rw [Nat.succ_mul] at hk
    omega
  · split_ifs <;> omega
  · have hk := Nat.mul_le_mul_right den (Nat.succ_le_of_lt h)
    rcases Nat.lt_or_ge (q + 1) m with h2 | h2
    · have hk2 := Nat.mul_le_mul_right den (Nat.succ_le_of_lt h2)
      rw [Nat.succ_mul, Nat.succ_mul] at hk2
      omega
    · obtain rfl : m = q + 1 := by omega
      rw [Nat.succ_mul q den] at hl hu he
      split_ifs <;> omega

/-- A quotient rounds at an exponent of two to the nearest multiple of that power. -/
theorem roundDiv_scaled {num den m : ℕ} (hd : 0 < den) (e : ℤ)
    (hl : ((m : ℚ) - 1 / 2) * 2 ^ e ≤ num / den) (hu : (num / den : ℚ) ≤ (m + 1 / 2) * 2 ^ e)
    (he : (num / den : ℚ) = (m - 1 / 2) * 2 ^ e ∨ (num / den : ℚ) = (m + 1 / 2) * 2 ^ e →
      m % 2 = 0) :
    roundDiv (num * 2 ^ (-e).toNat) (den * 2 ^ e.toNat) = m := by
  have hD : (0 : ℚ) < ((den * 2 ^ e.toNat : ℕ) : ℚ) := by positivity
  have hq : (0 : ℚ) < 2 ^ e := by positivity
  have hv : (num / den : ℚ) =
      ((num * 2 ^ (-e).toNat : ℕ) : ℚ) / ((den * 2 ^ e.toNat : ℕ) : ℚ) * 2 ^ e := by
    rw [zpow_eq_div 2 e]
    push_cast
    field_simp
  rw [hv] at hl hu he
  generalize num * 2 ^ (-e).toNat = N at *
  generalize den * 2 ^ e.toNat = D at *
  rw [mul_le_mul_iff_left₀ hq, le_div_iff₀ hD] at hl
  rw [mul_le_mul_iff_left₀ hq, div_le_iff₀ hD] at hu
  rw [mul_left_inj' hq.ne', mul_left_inj' hq.ne', div_eq_iff hD.ne', div_eq_iff hD.ne'] at he
  have hlN : 2 * (m * D : ℚ) ≤ 2 * N + D := by linarith
  have huN : 2 * (N : ℚ) ≤ 2 * (m * D) + D := by linarith
  refine roundDiv_eq (by exact_mod_cast hD) (by exact_mod_cast hlN) (by exact_mod_cast huN) ?_
  by_cases hm : m % 2 = 0
  · exact .inl hm
  · refine .inr ⟨fun h => hm (he (.inl ?_)), fun h => hm (he (.inr ?_))⟩
    · have h' : 2 * (m * D : ℚ) = 2 * N + D := by exact_mod_cast h
      linarith
    · have h' : 2 * (N : ℚ) = 2 * (m * D) + D := by exact_mod_cast h
      linarith

/-! ### The numbers that round to a magnitude -/

/-- The number that a decimal stands for. -/
def Numeral.value (d : Numeral) : ℚ :=
  d.digits * 10 ^ d.exp

namespace Binary

/-- The number that a magnitude stands for. -/
def value (b : Binary) : ℚ :=
  b.mant * 2 ^ b.exp

/-- A magnitude of a finite double other than zero. -/
structure Legal (b : Binary) : Prop where
  mant_pos : 0 < b.mant
  mant_lt : b.mant < 2 ^ 53
  le_exp : -1074 ≤ b.exp
  exp_le : b.exp ≤ 971
  normal : b.exp ≠ -1074 → 2 ^ 52 ≤ b.mant
  narrow_iff : b.narrow = true ↔ b.mant = 2 ^ 52 ∧ b.exp ≠ -1074

/-- How far below a magnitude the numbers that round to it start, in units of its last bit. -/
def reach (b : Binary) : ℚ :=
  if b.narrow then 1 / 4 else 1 / 2

/-- The number rounds to the magnitude: it is at most halfway to either neighbour, and halfway only
where the mantissa is even. -/
structure Rounds (b : Binary) (v : ℚ) : Prop where
  low_le : (b.mant - b.reach) * 2 ^ b.exp ≤ v
  le_high : v ≤ (b.mant + 1 / 2) * 2 ^ b.exp
  even_of_end : v = (b.mant - b.reach) * 2 ^ b.exp ∨ v = (b.mant + 1 / 2) * 2 ^ b.exp →
    b.mant % 2 = 0

/-- The bits of a magnitude as those of a double. -/
def bits (b : Binary) : ℕ :=
  (b.exp + 1074).toNat * 0x10000000000000 + b.mant

variable {b : Binary}

/-- The exponent that a number which rounds to a magnitude is rounded at: that of the magnitude or,
just below a power of two, the one below it. -/
theorem Legal.rounding_exponent (hb : b.Legal) {num den : ℕ} (hn : 0 < num) (hd : 0 < den)
    (h : b.Rounds (num / den)) :
    max (binaryExponent num den - 52) (-1074) = b.exp ∨
      (max (binaryExponent num den - 52) (-1074) = b.exp - 1 ∧ b.narrow = true ∧
        (num / den : ℚ) < 2 ^ 52 * 2 ^ b.exp) := by
  obtain ⟨h1, h2⟩ := binaryExponent_spec hn hd
  generalize binaryExponent num den = e at *
  generalize (num / den : ℚ) = v at *
  have hq : (0 : ℚ) < 2 ^ b.exp := by positivity
  have hmlt : (b.mant : ℚ) + 1 ≤ 2 ^ 53 := by exact_mod_cast hb.mant_lt
  -- Above: the number lies below the power of two that ends the binade of the magnitude.
  have hup : e ≤ b.exp + 52 := by
    have hlt : (2 : ℚ) ^ e < 2 ^ (b.exp + 53) := by
      calc (2 : ℚ) ^ e ≤ v := h1
        _ ≤ (b.mant + 1 / 2) * 2 ^ b.exp := h.le_high
        _ < 2 ^ 53 * 2 ^ b.exp := by gcongr; linarith
        _ = 2 ^ (b.exp + 53) := by rw [zpow_add₀ two_ne_zero, mul_comm]; norm_num
    have := (zpow_lt_zpow_iff_right₀ (by norm_num : (1 : ℚ) < 2)).mp hlt
    omega
  by_cases hexp : b.exp = -1074
  · left
    omega
  have hmge : (2 : ℚ) ^ 52 ≤ b.mant := by exact_mod_cast hb.normal hexp
  have hlow : b.exp + 51 ≤ e := by
    have hlt : (2 : ℚ) ^ (b.exp + 51) < 2 ^ (e + 1) := by
      calc (2 : ℚ) ^ (b.exp + 51) = 2 ^ 51 * 2 ^ b.exp := by
            rw [zpow_add₀ two_ne_zero, mul_comm]; norm_num
        _ < (b.mant - b.reach) * 2 ^ b.exp := by
          gcongr
          rw [reach]
          split_ifs <;> linarith
        _ ≤ v := h.low_le
        _ < 2 ^ (e + 1) := h2
    have := (zpow_lt_zpow_iff_right₀ (by norm_num : (1 : ℚ) < 2)).mp hlt
    omega
  have hle := hb.le_exp
  rcases eq_or_ne e (b.exp + 52) with he | he
  · left
    omega
  · right
    have hv : v < 2 ^ 52 * 2 ^ b.exp := by
      calc v < 2 ^ (e + 1) := h2
        _ = 2 ^ (b.exp + 52) := by congr 1; omega
        _ = 2 ^ 52 * 2 ^ b.exp := by rw [zpow_add₀ two_ne_zero, mul_comm]; norm_num
    refine ⟨by omega, hb.narrow_iff.mpr ⟨?_, hexp⟩, hv⟩
    have hlt : (b.mant : ℚ) - b.reach < 2 ^ 52 :=
      lt_of_mul_lt_mul_right (h.low_le.trans_lt hv) hq.le
    have hr : b.reach ≤ 1 / 2 := by rw [reach]; split_ifs <;> norm_num
    have hm : (b.mant : ℚ) < 2 ^ 52 + 1 := by linarith
    have hm' : b.mant < 2 ^ 52 + 1 := by exact_mod_cast hm
    have := hb.normal hexp
    omega

/-- The double nearest to a quotient that rounds to a magnitude is that magnitude. -/
theorem Legal.nearestBits_eq (hb : b.Legal) {num den : ℕ} (hn : 0 < num) (hd : 0 < den)
    (h : b.Rounds (num / den)) : nearestBits num den = b.bits := by
  have hle := hb.le_exp
  have hge := hb.exp_le
  have hm := hb.mant_lt
  have hr : b.reach ≤ 1 / 2 := by rw [reach]; split_ifs <;> norm_num
  have hq : (0 : ℚ) < 2 ^ b.exp := by positivity
  rw [nearestBits, if_neg hn.ne']
  rcases hb.rounding_exponent hn hd h with he | ⟨he, hnarrow, hlt⟩
  · have hlow : ((b.mant : ℚ) - 1 / 2) * 2 ^ b.exp ≤ (b.mant - b.reach) * 2 ^ b.exp := by
      gcongr
    have hround : roundDiv (num * 2 ^ (-b.exp).toNat) (den * 2 ^ b.exp.toNat) = b.mant := by
      refine roundDiv_scaled hd b.exp (hlow.trans h.low_le) h.le_high fun hend => ?_
      refine h.even_of_end (hend.imp_left fun h1 => ?_)
      exact le_antisymm (h1.le.trans hlow) h.low_le
    simp only [he, hround, bits]
    omega
  · obtain ⟨hmant, hexp⟩ := hb.narrow_iff.mp hnarrow
    have hpow : (2 : ℚ) ^ b.exp = 2 * 2 ^ (b.exp - 1) := by
      rw [zpow_sub_one₀ two_ne_zero]
      ring
    have hlow := h.low_le
    rw [reach, if_pos hnarrow, hmant, hpow] at hlow
    rw [hpow] at hlt
    have hq' : (0 : ℚ) < 2 ^ (b.exp - 1) := by positivity
    have hround : roundDiv (num * 2 ^ (-(b.exp - 1)).toNat) (den * 2 ^ (b.exp - 1).toNat) =
        2 ^ 53 := by
      refine roundDiv_scaled hd (b.exp - 1) ?_ ?_ fun _ => rfl
      · push_cast at hlow ⊢
        linarith
      · push_cast at hlow ⊢
        linarith
    simp only [he, hround, bits]
    omega

theorem quarter_low (hb : b.Legal) :
    ((if b.narrow then 4 * b.mant - 1 else 4 * b.mant - 2 : ℕ) : ℚ) * 2 ^ (b.exp - 2) =
      (b.mant - b.reach) * 2 ^ b.exp := by
  have hm := hb.mant_pos
  have hpow : (2 : ℚ) ^ b.exp = 4 * 2 ^ (b.exp - 2) := by
    rw [zpow_sub₀ two_ne_zero]
    norm_num
    ring
  rw [reach, hpow]
  split_ifs <;> push_cast [show 1 ≤ 4 * b.mant by omega, show 2 ≤ 4 * b.mant by omega] <;> ring

theorem quarter_high : ((4 * b.mant + 2 : ℕ) : ℚ) * 2 ^ (b.exp - 2) =
    (b.mant + 1 / 2) * 2 ^ b.exp := by
  have hpow : (2 : ℚ) ^ b.exp = 4 * 2 ^ (b.exp - 2) := by
    rw [zpow_sub₀ two_ne_zero]
    norm_num
    ring
  rw [hpow]
  push_cast
  ring

/-- A decimal that identifies a magnitude rounds to it. -/
theorem Legal.rounds_of_identifiedBy (hb : b.Legal) {d : Numeral} (h : b.identifiedBy d = true) :
    b.Rounds d.value := by
  simp only [identifiedBy, compareScaled_eq, quarter_low hb, quarter_high] at h
  change ((compare d.value _ == _ || _ && compare d.value _ == _) &&
    (compare d.value _ == _ || _ && compare d.value _ == _)) = true at h
  simp only [Bool.and_eq_true, Bool.or_eq_true, beq_iff_eq, compare_lt_iff_lt, compare_gt_iff_gt,
    compare_eq_iff_eq] at h
  obtain ⟨h1, h2⟩ := h
  refine ⟨?_, ?_, ?_⟩
  · rcases h1 with h1 | ⟨-, h1⟩
    · exact h1.le
    · exact h1.ge
  · rcases h2 with h2 | ⟨-, h2⟩
    · exact h2.le
    · exact h2.le
  · rintro (he | he)
    · rcases h1 with h1 | ⟨hm, -⟩
      · exact absurd he h1.ne'
      · exact hm
    · rcases h2 with h2 | ⟨hm, -⟩
      · exact absurd he h2.ne
      · exact hm

theorem value_exact : b.exact.value = b.value := by
  rw [exact, Numeral.value, value]
  split_ifs with h
  · push_cast
    rw [mul_one, ← zpow_natCast, Int.toNat_of_nonneg h]
  · push_cast
    rw [zpow_eq_div 10, zpow_eq_div 2, show b.exp.toNat = 0 by omega,
      show (10 : ℚ) = 2 * 5 by norm_num, mul_pow, mul_pow]
    field_simp

/-- A magnitude rounds to itself. -/
theorem rounds_value : b.Rounds b.value := by
  have hq : (0 : ℚ) < 2 ^ b.exp := by positivity
  have hr : 0 < b.reach := by rw [reach]; split_ifs <;> norm_num
  have hlow : (b.mant - b.reach) * 2 ^ b.exp < b.value := by
    rw [value]
    gcongr
    linarith
  have hhigh : b.value < (b.mant + 1 / 2) * 2 ^ b.exp := by
    rw [value]
    gcongr
    linarith
  exact ⟨hlow.le, hhigh.le, fun h => (h.elim hlow.ne' hhigh.ne).elim⟩

/-- The decimal with the fewest digits rounds to its magnitude. -/
theorem Legal.rounds_shortest (hb : b.Legal) (tie : Tie) : b.Rounds (b.shortest tie).value := by
  rw [shortest]
  rcases Option.eq_none_or_eq_some
    ((List.range 18).findSome? fun (n : ℕ) => b.onGrid? tie (b.scale - (n : ℤ))) with h | ⟨d, h⟩
  · rw [h, Option.getD_none, value_exact]
    exact rounds_value
  · obtain ⟨n, -, hn⟩ := List.exists_of_findSome?_eq_some h
    rw [h, Option.getD_some]
    exact hb.rounds_of_identifiedBy (identifiedBy_of_grid hn)

end Binary

/-! ### Doubles as magnitudes -/

namespace Binary

theorem ofDoubleBits_eq (n : ℕ) : ofDoubleBits n =
    if exponentField n = 0 then ⟨mantissaField n, -1074, false⟩
    else ⟨2 ^ 52 + mantissaField n, -1074 + (exponentField n - 1 : ℕ),
      mantissaField n == 0 && exponentField n > 1⟩ :=
  rfl

theorem bits_ofDoubleBits {n : ℕ} (hn : n < 2 ^ 64) :
    n = (ofDoubleBits n).bits + if 0x8000000000000000 ≤ n then 0x8000000000000000 else 0 := by
  have hm : mantissaField n < 2 ^ 52 := Nat.mod_lt _ (by decide)
  have hbits : (ofDoubleBits n).bits = exponentField n * 2 ^ 52 + mantissaField n := by
    rw [ofDoubleBits_eq]
    split_ifs with h
    · simp [bits, h]
    · simp only [bits]
      rw [show (-1074 + (exponentField n - 1 : ℕ) + 1074 : ℤ).toNat = exponentField n - 1 by omega]
      omega
  rw [hbits, exponentField, mantissaField]
  split_ifs <;> omega

/-- The bits of a double are those of its magnitude and its sign. -/
theorem bits_ofDouble (x : Float) :
    x.toBits.toNat = (ofDouble x).bits + if negativeDouble x then 0x8000000000000000 else 0 := by
  have h := bits_ofDoubleBits x.toBits.toNat_lt
  simp only [negativeDouble, decide_eq_true_eq, ge_iff_le]
  exact h

/-- The magnitude of a finite double other than zero is legal. -/
theorem legal_ofDouble {x : Float} (hf : x.isFinite = true) (h0 : (x == 0) = false) :
    (ofDouble x).Legal := by
  have he := exponentField_lt hf
  have hne : ¬ (exponentField x.toBits.toNat = 0 ∧ mantissaField x.toBits.toNat = 0) := by
    rw [← beq_zero_iff, h0]
    exact Bool.false_ne_true
  have hm : mantissaField x.toBits.toNat < 2 ^ 52 := Nat.mod_lt _ (by decide)
  rw [ofDouble, ofDoubleBits_eq]
  split_ifs with h
  · exact ⟨by dsimp only; omega, by dsimp only; omega, le_rfl, by norm_num, by simp, by simp⟩
  · refine ⟨by dsimp only; omega, by dsimp only; omega, by dsimp only; omega,
      by dsimp only; omega, fun _ => by dsimp only; omega, ?_⟩
    simp only [Bool.and_eq_true, beq_iff_eq, decide_eq_true_eq]
    omega

/-- Numbers that round to a legal magnitude are at least half of the least positive double. -/
theorem Legal.le_of_rounds {b : Binary} (hb : b.Legal) {v : ℚ} (h : b.Rounds v) :
    (2 : ℚ) ^ (-1075 : ℤ) ≤ v := by
  have hm : (1 : ℚ) ≤ b.mant := by exact_mod_cast hb.mant_pos
  have hr : b.reach ≤ 1 / 2 := by rw [reach]; split_ifs <;> norm_num
  calc (2 : ℚ) ^ (-1075 : ℤ) = 1 / 2 * 2 ^ (-1074 : ℤ) := by
        rw [show (-1075 : ℤ) = -1074 - 1 by norm_num, zpow_sub_one₀ two_ne_zero]
        ring
    _ ≤ (b.mant - b.reach) * 2 ^ b.exp :=
        mul_le_mul (by linarith) (zpow_le_zpow_right₀ one_le_two hb.le_exp) (by positivity)
          (by linarith)
    _ ≤ v := h.low_le

end Binary

/-- A decimal without a positive exponent whose number rounds to the magnitude of a finite double
other than zero gives that double. -/
theorem nearestDouble_eq {x : Float} (hf : x.isFinite = true) (h0 : (x == 0) = false)
    {digits : ℕ} {exp : ℤ} (hexp : exp ≤ 0)
    (h : (Binary.ofDouble x).Rounds (digits * 10 ^ exp)) :
    nearestDouble (negativeDouble x) digits exp = x := by
  have hb := Binary.legal_ofDouble hf h0
  have hlow := hb.le_of_rounds h
  have hd : 0 < digits := by
    rcases Nat.eq_zero_or_pos digits with rfl | hd
    · have hpos : (0 : ℚ) < 2 ^ (-1075 : ℤ) := by positivity
      rw [Nat.cast_zero, zero_mul] at hlow
      exact absurd hpos hlow.not_gt
    · exact hd
  have hsmall : ¬ exp + (digits.log2 : ℤ) < -1100 := by
    intro hs
    have hdig : (digits : ℚ) < 2 ^ ((digits.log2 : ℤ) + 1) := by exact_mod_cast Nat.lt_log2_self
    have hten : (10 : ℚ) ^ exp ≤ 2 ^ exp := by
      rw [zpow_eq_div 10, zpow_eq_div 2, show exp.toNat = 0 by omega, pow_zero, pow_zero]
      gcongr
      norm_num
    have : (2 : ℚ) ^ (-1075 : ℤ) < 2 ^ (-1075 : ℤ) := by
      calc (2 : ℚ) ^ (-1075 : ℤ) ≤ digits * 10 ^ exp := hlow
        _ ≤ digits * 2 ^ exp := by gcongr
        _ < 2 ^ ((digits.log2 : ℤ) + 1) * 2 ^ exp := by gcongr
        _ = 2 ^ ((digits.log2 : ℤ) + 1 + exp) := (zpow_add₀ two_ne_zero _ _).symm
        _ ≤ 2 ^ (-1075 : ℤ) := zpow_le_zpow_right₀ one_le_two (by omega)
    exact this.false
  have hquot : ((digits * 10 ^ exp.toNat : ℕ) : ℚ) / ((10 ^ (-exp).toNat : ℕ) : ℚ) =
      digits * 10 ^ exp := by
    rw [zpow_eq_div 10 exp]
    push_cast
    ring
  have hbits : nearestBits (digits * 10 ^ exp.toNat) (10 ^ (-exp).toNat) =
      (Binary.ofDouble x).bits :=
    hb.nearestBits_eq (by positivity) (by positivity) (hquot ▸ h)
  rw [nearestDouble, if_neg hd.ne', if_neg (by omega), if_neg hsmall, hbits,
    ← Binary.bits_ofDouble]
  rw [UInt64.ofNat_toNat, ofBits_toBits]

end Raceway.Decimal
