import Mathlib
import Raceway.Proofs.Decimal.Order
/-!
# The arithmetic of doubles

A product or a quotient of two doubles is the exact one, rounded. Bits are shifted out of the exact
mantissa until it fits, and of what is shifted out two bits are kept: the first one, and whether
there is any other. They tell on which side of the middle between two mantissas the exact number
lies, so that the result depends on the number alone and a greater number never gives a smaller
result.

## Main definitions

* `Raceway.Decimal.Represents`: a mantissa with its two further bits as the number that it is cut
  off from.
* `Raceway.Decimal.Rounded`: a number rounded to a double.

## Main results

* `Raceway.Decimal.Rounded.mono`: rounding is monotone.
* `Raceway.Decimal.exists_stands_round`: what a mantissa is rounded to.
* `Raceway.Decimal.exists_stands_mul`, `Raceway.Decimal.exists_stands_div` and
  `Raceway.Decimal.exists_stands_toFloat`: the results of arithmetic.
-/

namespace Raceway.Decimal

open Float.Model Float.Model.UnpackedFloat

/-! ### Mantissas and what is cut off -/

/-- A mantissa and the bit behind it, as a number of halves. -/
def halves (em : ExtendedMantissa) : ℕ :=
  2 * em.mantissa + em.roundBit.toNat

/-- The number that is cut off to a mantissa, the bit behind it and a mark for all further bits. -/
structure Represents (em : ExtendedMantissa) (q : ℚ) : Prop where
  le : (halves em : ℚ) ≤ 2 * q
  lt : 2 * q < halves em + 1
  sticky : em.stickyBit = true ↔ (halves em : ℚ) < 2 * q

section

variable {em em' : ExtendedMantissa} {q q' : ℚ}

theorem mantissa_le (h : Represents em q) : (em.mantissa : ℚ) ≤ q := by
  have hle := h.le
  rw [halves] at hle
  push_cast at hle
  linarith [(Nat.cast_nonneg em.roundBit.toNat : (0 : ℚ) ≤ _)]

theorem lt_mantissa_add_one (h : Represents em q) : q < em.mantissa + 1 := by
  have hlt := h.lt
  have hbit : (em.roundBit.toNat : ℚ) ≤ 1 := by exact_mod_cast Bool.toNat_le em.roundBit
  rw [halves] at hlt
  push_cast at hlt
  linarith

theorem halves_shiftRightOne (em : ExtendedMantissa) : halves em.shiftRightOne = em.mantissa := by
  have hmod := Nat.mod_two_eq_zero_or_one em.mantissa
  rw [halves, ExtendedMantissa.shiftRightOne]
  rcases hmod with h | h <;> simp [h] <;> omega

/-- A bit that is shifted out is the one behind the mantissa, and that one goes to the further
bits. -/
theorem Represents.shiftRightOne (h : Represents em q) : Represents em.shiftRightOne (q / 2) := by
  have hle := mantissa_le h
  have hlt := lt_mantissa_add_one h
  refine ⟨?_, ?_, ?_⟩
  · rw [halves_shiftRightOne]
    linarith
  · rw [halves_shiftRightOne]
    linarith
  · have hbits : (em.roundBit || em.stickyBit) = true ↔ (em.mantissa : ℚ) < q := by
      have hsticky := h.sticky
      have hhalves := h.le
      rw [halves] at hsticky hhalves
      cases hbit : em.roundBit with
      | false =>
        rw [Bool.false_or, hsticky, hbit, Bool.toNat_false, Nat.add_zero]
        push_cast
        constructor <;> intro <;> linarith
      | true =>
        rw [hbit, Bool.toNat_true] at hhalves
        push_cast at hhalves
        rw [Bool.true_or, eq_self_iff_true, true_iff]
        linarith
    rw [halves_shiftRightOne, mul_div_cancel₀ q two_ne_zero, ← hbits]
    rfl

theorem Represents.shiftRight (h : Represents em q) (n : ℕ) :
    Represents (em >>> n) (q / 2 ^ n) := by
  change Represents (n.repeat ExtendedMantissa.shiftRightOne em) (q / 2 ^ n)
  induction n with
  | zero => simpa [Nat.repeat] using h
  | succ n ih =>
    rw [Nat.repeat, pow_succ, ← div_div]
    exact ih.shiftRightOne

theorem mantissa_shiftRight (em : ExtendedMantissa) (n : ℕ) :
    (em >>> n).mantissa = em.mantissa / 2 ^ n := by
  change (n.repeat ExtendedMantissa.shiftRightOne em).mantissa = em.mantissa / 2 ^ n
  induction n with
  | zero => rw [Nat.repeat, pow_zero, Nat.div_one]
  | succ n ih =>
    rw [Nat.repeat, pow_succ, ← Nat.div_div_eq_div_mul, ← ih]
    rfl

theorem represents_exact (m : ℕ) : Represents ⟨m, false, false⟩ m := by
  refine ⟨?_, ?_, ?_⟩ <;> simp [halves]

/-- What lies above a mantissa is known by the side of the middle on which it lies. -/
theorem represents_inexact (m : ℕ) {x : ℚ} (hpos : 0 < x) (hlt : x < 1) :
    Represents (.ofMantissaAndAccuracy m (.inexact (compare (2 * x) 1))) (m + x) := by
  rcases lt_trichotomy (2 * x) 1 with h | h | h
  · rw [compare_lt_iff_lt.mpr h]
    refine ⟨?_, ?_, ?_⟩ <;> simp [halves, ExtendedMantissa.ofMantissaAndAccuracy] <;> linarith
  · rw [compare_eq_iff_eq.mpr h]
    refine ⟨?_, ?_, ?_⟩ <;> simp [halves, ExtendedMantissa.ofMantissaAndAccuracy] <;> linarith
  · rw [compare_gt_iff_gt.mpr h]
    refine ⟨?_, ?_, ?_⟩ <;> simp [halves, ExtendedMantissa.ofMantissaAndAccuracy] <;> linarith

/-- The quotient of two mantissas. -/
theorem represents_div {a d : ℕ} (hd : 0 < d) :
    Represents (.ofMantissaAndAccuracy (a / d) (accuracyOfFraction (a % d) d)) (a / d : ℚ) := by
  have hd' : (0 : ℚ) < d := by exact_mod_cast hd
  have hsplit : (a / d : ℚ) = (a / d : ℕ) + (a % d : ℕ) / d := by
    rw [div_eq_iff hd'.ne', add_mul, div_mul_cancel₀ _ hd'.ne']
    exact_mod_cast (Nat.div_add_mod' a d).symm
  have hmod := Nat.mod_lt a hd
  rw [hsplit, accuracyOfFraction]
  generalize a % d = r at *
  split_ifs with hzero
  · rw [hzero, Nat.cast_zero, zero_div, add_zero]
    exact represents_exact _
  · have hmono : StrictMono fun n : ℕ => (n : ℚ) / d := fun _ _ h =>
      div_lt_div_of_pos_right (by exact_mod_cast h) hd'
    have hcompare : compare (2 * r) d = compare (2 * (r / d : ℚ)) 1 := by
      rw [← cmp_eq_compare, ← cmp_eq_compare, ← hmono.cmp_map_eq, div_self hd'.ne', Nat.cast_mul,
        Nat.cast_ofNat, mul_div_assoc]
    rw [hcompare]
    refine represents_inexact _ (div_pos ?_ hd') ((div_lt_one hd').mpr ?_)
    · exact_mod_cast Nat.pos_of_ne_zero hzero
    · exact_mod_cast hmod

theorem mantissa_ofMantissaAndAccuracy (m : ℕ) (accuracy : Accuracy) :
    (ExtendedMantissa.ofMantissaAndAccuracy m accuracy).mantissa = m := by
  rcases accuracy with _ | _ | _ | _ <;> rfl

theorem le_roundedMantissa (em : ExtendedMantissa) : em.mantissa ≤ em.roundedMantissa := by
  obtain ⟨m, r, s⟩ := em
  cases r <;> cases s <;>
    simp [ExtendedMantissa.roundedMantissa, ExtendedMantissa.accuracy, Accuracy.roundToNearestEven]

theorem roundedMantissa_le (em : ExtendedMantissa) : em.roundedMantissa ≤ em.mantissa + 1 := by
  obtain ⟨m, r, s⟩ := em
  cases r <;> cases s <;>
    simp [ExtendedMantissa.roundedMantissa, ExtendedMantissa.accuracy, Accuracy.roundToNearestEven]
  omega

/-- A greater number is not rounded to a smaller mantissa. -/
theorem Represents.roundedMantissa_mono (h : Represents em q) (h' : Represents em' q')
    (hq : q ≤ q') : em.roundedMantissa ≤ em'.roundedMantissa := by
  have hhalves : halves em ≤ halves em' := by
    have hlt : (halves em : ℚ) < halves em' + 1 := by linarith [h.le, h'.lt]
    exact Nat.lt_succ_iff.mp (by exact_mod_cast hlt)
  have hsticky : halves em = halves em' → em.stickyBit = true → em'.stickyBit = true := by
    intro heq hbit
    rw [h'.sticky, ← heq]
    exact (h.sticky.mp hbit).trans_le (by linarith)
  obtain ⟨m, r, s⟩ := em
  obtain ⟨m', r', s'⟩ := em'
  cases r <;> cases s <;> cases r' <;> cases s' <;>
    simp [halves, ExtendedMantissa.roundedMantissa, ExtendedMantissa.accuracy,
      Accuracy.roundToNearestEven] at hhalves hsticky ⊢ <;> omega

end

/-! ### Rounded numbers -/

/-- A number rounded to a double. -/
inductive Rounded (x : ℚ) : ℚ → Prop
  | intro (em : ExtendedMantissa) (e : ℤ) (hrep : Represents em (x / 2 ^ e))
    (hfits : Fits em.mantissa e) : Rounded x (em.roundedMantissa * 2 ^ e)

section

variable {m n : ℕ} {e f : ℤ} {x y v w : ℚ}

/-- The number that a double stands for is not changed. -/
theorem rounded_self (h : Fits m e) : Rounded (m * 2 ^ e) (m * 2 ^ e) := by
  refine .intro ⟨m, false, false⟩ e ?_ h
  rw [mul_div_cancel_right₀ _ (by positivity)]
  exact represents_exact m

/-- Rounding is monotone. -/
theorem Rounded.mono (hx : Rounded x v) (hy : Rounded y w) (h : x ≤ y) : v ≤ w := by
  obtain ⟨em, e, hrep, hfits⟩ := hx
  obtain ⟨em', f, hrep', hfits'⟩ := hy
  have hpos (e : ℤ) : (0 : ℚ) < 2 ^ e := by positivity
  rcases lt_trichotomy e f with hef | rfl | hef
  · have hle : (em.roundedMantissa : ℚ) ≤ 2 ^ 53 := by
      exact_mod_cast (roundedMantissa_le em).trans hfits.lt
    have hle' : (em'.mantissa : ℚ) ≤ em'.roundedMantissa := by
      exact_mod_cast le_roundedMantissa em'
    calc (em.roundedMantissa : ℚ) * 2 ^ e ≤ 2 ^ 53 * 2 ^ e :=
          mul_le_mul_of_nonneg_right hle (hpos e).le
      _ ≤ em'.mantissa * 2 ^ f := two_pow_mul_le hfits' hef hfits.le
      _ ≤ em'.roundedMantissa * 2 ^ f := mul_le_mul_of_nonneg_right hle' (hpos f).le
  · have hle := hrep.roundedMantissa_mono hrep' (div_le_div_of_nonneg_right h (hpos e).le)
    exact mul_le_mul_of_nonneg_right (by exact_mod_cast hle) (hpos e).le
  · -- The number with the greater exponent would be the greater one.
    exfalso
    have hx : (em.mantissa : ℚ) * 2 ^ e ≤ x := (le_div_iff₀ (hpos e)).mp (mantissa_le hrep)
    have hy : y < (em'.mantissa + 1) * 2 ^ f :=
      (div_lt_iff₀ (hpos f)).mp (lt_mantissa_add_one hrep')
    have hle : (em'.mantissa + 1 : ℚ) * 2 ^ f ≤ 2 ^ 53 * 2 ^ f :=
      mul_le_mul_of_nonneg_right (by exact_mod_cast hfits'.lt) (hpos f).le
    linarith [two_pow_mul_le hfits hef hfits'.le]

/-! ### Packing -/

theorem unpackSign_packComponents (s : Sign) (a : BitVec 11) (b : BitVec 52) :
    Sign.ofBitVec (@unpackSign doubleFormat (packComponents doubleFormat s a b)) = s := by
  have hword := toNat_packComponents s a b
  have hsign : @unpackSign doubleFormat (packComponents doubleFormat s a b) = s.toBitVec := by
    refine BitVec.eq_of_toNat_eq ?_
    have hs := s.toBitVec.isLt
    have ha := a.isLt
    have hb := b.isLt
    simp only [unpackSign, BitVec.toNat_cast, BitVec.extractLsb_toNat, Nat.shiftRight_eq_div_pow,
      hword]
    omega
  rw [hsign]
  cases s <;> rfl

theorem finite_congr {s s' : Sign} {m m' : ℕ} {e e' : ℤ} {h : 0 < m} {h' : 0 < m'} (hs : s = s')
    (hm : m = m') (he : e = e') : UnpackedFloat.finite s m e h = .finite s' m' e' h' := by
  subst hs hm he
  rfl

theorem unpack_packComponents_normal (s : Sign) {a : BitVec 11} (b : BitVec 52) (h0 : 0 < a.toNat)
    (ha : a.toNat < 2047) :
    UnpackedFloat.unpack doubleFormat (packComponents doubleFormat s a b) =
      .finite s (2 ^ 52 + b.toNat) (a.toNat - 1075) (by omega) := by
  have hones : a ≠ -1#11 := by
    rintro rfl
    exact absurd ha (by decide)
  have hzero : a ≠ 0#11 := by
    rintro rfl
    exact absurd h0 (by decide)
  have hbias := exponentBias_double
  simp only [UnpackedFloat.unpack, unpackMantissa_packComponents, unpackExponent_packComponents]
  rw [if_neg hones, if_neg hzero]
  exact finite_congr (unpackSign_packComponents ..) (toNat_implicit b) (by omega)

theorem unpack_packComponents_subnormal (s : Sign) {b : BitVec 52} (hb : 0 < b.toNat) :
    UnpackedFloat.unpack doubleFormat (packComponents doubleFormat s 0#11 b) =
      .finite s b.toNat (-1074) hb := by
  have hones : 0#11 ≠ -1#11 := by decide
  have hzero : b ≠ 0#52 := by
    rintro rfl
    exact absurd hb (by decide)
  simp only [UnpackedFloat.unpack, unpackMantissa_packComponents, unpackExponent_packComponents]
  rw [if_neg hones, if_pos True.intro, dif_neg hzero]
  exact finite_congr (unpackSign_packComponents ..) rfl rfl

/-- What fits a double is packed without a loss. -/
theorem unpack_pack (s : Sign) (hm : 0 < m) (h : Fits m e) (he : e ≤ 971) :
    (Float.Model.pack (.finite s m e hm)).unpack = .finite s m e hm := by
  obtain ⟨hlt, hle, hfull⟩ := h
  have hbias := exponentBias_double
  have hbiased : (e + doubleFormat.exponentBias + (52 : ℕ)).toNat = (e + 1075).toNat := by
    rw [hbias]
    omega
  have hexp : (BitVec.ofNat 11 (e + 1075).toNat).toNat = (e + 1075).toNat := by
    rw [BitVec.toNat_ofNat, Nat.mod_eq_of_lt (by omega)]
  have hmantissa : (BitVec.ofNat 52 m).toNat = m % 2 ^ 52 := BitVec.toNat_ofNat m 52
  change UnpackedFloat.unpack doubleFormat (UnpackedFloat.pack doubleFormat _) = _
  simp only [UnpackedFloat.pack]
  rw [hbiased, if_neg (by simp; omega)]
  split_ifs with hbits
  · change m.log2 + 1 = 53 at hbits
    have hnormal : 2 ^ 52 ≤ m := (Nat.le_log2 hm.ne').mp (by omega)
    refine (unpack_packComponents_normal s _ (by omega) (by omega)).trans ?_
    exact finite_congr rfl (by omega) (by omega)
  · change m.log2 + 1 ≠ 53 at hbits
    have hlog := (Nat.log2_lt hm.ne').mpr hlt
    have hsmall : m < 2 ^ 52 := (Nat.log2_lt hm.ne').mp (by omega)
    refine (unpack_packComponents_subnormal s (by omega)).trans ?_
    exact finite_congr rfl (by omega) (by omega)

theorem unpack_pack_zero (s : Sign) : (Float.Model.pack (.zero s)).unpack = .zero s := by
  cases s <;> rfl

/-! ### Rounding -/

/-- The exponent that a mantissa is shifted to. -/
theorem targetExponent_eq (m : ℕ) (e : ℤ) :
    doubleFormat.targetExponent (totalExponent m e) = max (m.log2 + e - 52) (-1074) := by
  have hbits : (doubleFormat.mantissaBits : ℤ) = 53 := rfl
  have hleast : doubleFormat.minExponent = -1074 := rfl
  rw [Float.Model.Format.targetExponent, totalExponent, hbits, hleast]
  omega

/-- A mantissa that fits is not shifted again. -/
theorem shiftToTargetExponent_of_lt (hm : m < 2 ^ 53) (he : -1074 ≤ e) :
    shiftToTargetExponent doubleFormat m e .exact = (⟨m, false, false⟩, e) := by
  have hlog : m.log2 ≤ 52 := by
    rcases Nat.eq_zero_or_pos m with rfl | hpos
    · decide
    · exact Nat.lt_succ_iff.mp ((Nat.log2_lt hpos.ne').mpr hm)
  have hshift : (max (m.log2 + e - 52) (-1074) - e).toNat = 0 := by omega
  rw [shiftToTargetExponent, targetExponent_eq, shiftToExponent, hshift]
  exact congrArg (Prod.mk _) (add_zero e)

/-- A mantissa that was rounded up to a power of two is shifted by one bit. -/
theorem shiftToTargetExponent_two_pow (he : -1074 ≤ e) :
    shiftToTargetExponent doubleFormat (2 ^ 53) e .exact = (⟨2 ^ 52, false, false⟩, e + 1) := by
  have hlog : (2 ^ 53).log2 = 53 := Nat.log2_two_pow
  have hshift : (max ((53 : ℕ) + e - 52) (-1074) - e).toNat = 1 := by omega
  rw [shiftToTargetExponent, targetExponent_eq, hlog, shiftToExponent, hshift]
  rfl

/-- A mantissa with enough bits, cut off at its exponent. -/
theorem fits_shiftRight (h : 2 ^ 52 ≤ m ∨ e ≤ -1074) :
    Fits (m / 2 ^ (max (m.log2 + e - 52) (-1074) - e).toNat) (max (m.log2 + e - 52) (-1074)) := by
  have hlt : m < 2 ^ (m.log2 + 1) := Nat.lt_log2_self
  refine ⟨?_, le_max_right .., ?_⟩
  · rw [Nat.div_lt_iff_lt_mul (by positivity), ← pow_add]
    exact hlt.trans_le (Nat.pow_le_pow_right two_pos (by omega))
  · by_cases hleast : max ((m.log2 : ℤ) + e - 52) (-1074) = -1074
    · exact .inl hleast
    · have hm : m ≠ 0 := by
        rintro rfl
        rw [Nat.log2_zero] at hleast
        omega
      refine .inr ((Nat.le_div_iff_mul_le (by positivity)).mpr ?_)
      rw [← pow_add]
      refine (Nat.pow_le_pow_right two_pos ?_).trans (Nat.log2_self_le hm)
      have hlog : 2 ^ 52 ≤ m → 52 ≤ m.log2 := (Nat.le_log2 hm).mpr
      omega

/-- A mantissa with enough bits is shifted to its exponent. -/
theorem shiftToTargetExponent_eq (h : 2 ^ 52 ≤ m ∨ e ≤ -1074) (accuracy : Accuracy) :
    ∃ n : ℕ, (n : ℤ) = max (m.log2 + e - 52) (-1074) - e ∧
      Fits (m / 2 ^ n) (max (m.log2 + e - 52) (-1074)) ∧
      shiftToTargetExponent doubleFormat m e accuracy =
        (ExtendedMantissa.ofMantissaAndAccuracy m accuracy >>> n,
          max (m.log2 + e - 52) (-1074)) := by
  have hlog : 2 ^ 52 ≤ m → 52 ≤ m.log2 := fun h => (Nat.le_log2 (by omega)).mpr h
  have hshift : ((max (m.log2 + e - 52) (-1074) - e).toNat : ℤ) =
      max (m.log2 + e - 52) (-1074) - e := Int.toNat_of_nonneg (by omega)
  refine ⟨_, hshift, fits_shiftRight h, ?_⟩
  rw [shiftToTargetExponent, targetExponent_eq, shiftToExponent, hshift]
  exact congrArg (Prod.mk _) (by omega)

/-- A number that is not too great has an exponent that can be packed, also where its mantissa is
rounded up to the next power of two. -/
theorem exponent_le_of_lt {em : ExtendedMantissa} (hrep : Represents em (x / 2 ^ e))
    (hfits : Fits em.mantissa e) (hsmall : x < 2 ^ 1022) : e ≤ 970 := by
  rcases hfits.full with hleast | hfull
  · omega
  · have hpow : (2 : ℚ) ^ (52 + e) < 2 ^ (1022 : ℤ) := by
      calc (2 : ℚ) ^ (52 + e) = 2 ^ 52 * 2 ^ e := by
            rw [zpow_add₀ two_ne_zero]
            norm_cast
        _ ≤ em.mantissa * 2 ^ e :=
            mul_le_mul_of_nonneg_right (by exact_mod_cast hfull) (by positivity)
        _ ≤ x := (le_div_iff₀ (by positivity)).mp (mantissa_le hrep)
        _ < 2 ^ (1022 : ℤ) := by exact_mod_cast hsmall
    have hlt := (zpow_lt_zpow_iff_right₀ one_lt_two).mp hpow
    omega

/-- A mantissa that was shifted to its exponent is rounded, and shifted again if it was rounded up
to a power of two. -/
theorem stands_roundWithAccuracy {accuracy : Accuracy} {em : ExtendedMantissa} {t : ℤ}
    (hshift : shiftToTargetExponent doubleFormat m e accuracy = (em, t))
    (hfits : Fits em.mantissa t) (htop : t ≤ 970) :
    Stands (Float.Model.pack (roundWithAccuracy doubleFormat .positive m e accuracy)).unpack
      (em.roundedMantissa * 2 ^ t) := by
  have hle : em.roundedMantissa ≤ 2 ^ 53 := (roundedMantissa_le em).trans hfits.lt
  have hge := le_roundedMantissa em
  rw [roundWithAccuracy, hshift]
  dsimp only
  generalize em.roundedMantissa = r at *
  rcases hle.lt_or_eq with hr | rfl
  · rw [shiftToTargetExponent_of_lt hr hfits.le]
    dsimp only
    split_ifs with hzero
    · rw [unpack_pack_zero, hzero, Nat.cast_zero, zero_mul]
      exact .zero _
    · have hfits' : Fits r t := ⟨hr, hfits.le, hfits.full.imp_right fun h => h.trans hge⟩
      rw [unpack_pack _ (Nat.pos_of_ne_zero hzero) hfits' (by omega)]
      exact .positive _ hfits'
  · have hfits' : Fits (2 ^ 52) (t + 1) :=
      ⟨by decide, hfits.le.trans (Int.le_add_one le_rfl), .inr le_rfl⟩
    have hvalue : ((2 ^ 53 : ℕ) : ℚ) * 2 ^ t = ((2 ^ 52 : ℕ) : ℚ) * 2 ^ (t + 1) := by
      rw [zpow_add_one₀ two_ne_zero]
      push_cast
      ring
    rw [shiftToTargetExponent_two_pow hfits.le]
    dsimp only
    rw [dif_neg (by decide), unpack_pack _ (by decide) hfits' (by omega), hvalue]
    exact .positive _ hfits'

/-- What a mantissa with enough bits stands for is rounded to a double. -/
theorem exists_stands_round {accuracy : Accuracy} {q : ℚ}
    (hrep : Represents (.ofMantissaAndAccuracy m accuracy) q) (hbits : 2 ^ 52 ≤ m ∨ e ≤ -1074)
    (hsmall : q * 2 ^ e < 2 ^ 1022) :
    ∃ v, Stands (Float.Model.pack
        (roundWithAccuracy doubleFormat .positive m e accuracy)).unpack v ∧
      Rounded (q * 2 ^ e) v := by
  obtain ⟨n, hn, hfits, hshift⟩ := shiftToTargetExponent_eq hbits accuracy
  generalize max ((m.log2 : ℤ) + e - 52) (-1074) = t at *
  rw [← mantissa_ofMantissaAndAccuracy m accuracy, ← mantissa_shiftRight] at hfits
  have hrep' : Represents (ExtendedMantissa.ofMantissaAndAccuracy m accuracy >>> n)
      (q * 2 ^ e / 2 ^ t) := by
    have hpow : q * 2 ^ e / 2 ^ t = q / 2 ^ n := by
      rw [← zpow_natCast, hn, zpow_sub₀ two_ne_zero, div_div_eq_mul_div]
    rw [hpow]
    exact hrep.shiftRight n
  exact ⟨_, stands_roundWithAccuracy hshift hfits (exponent_le_of_lt hrep' hfits hsmall),
    .intro _ t hrep' hfits⟩

/-! ### Products, quotients and integers -/

theorem pos_of_stands {u : UnpackedFloat} (h : Stands u v) (hv : 0 < v) :
    ∃ m e, ∃ hm : 0 < m, Fits m e ∧ u = .finite .positive m e hm ∧ v = m * 2 ^ e := by
  cases h with
  | zero s => exact absurd hv (lt_irrefl 0)
  | positive hm hfits => exact ⟨_, _, hm, hfits, rfl, rfl⟩
  | @negative m e hm hfits =>
    have hpos : (0 : ℚ) < m * 2 ^ e := mul_pos (by exact_mod_cast hm) (by positivity)
    exact absurd hv (by linarith)

theorem zero_of_stands {u : UnpackedFloat} (h : Stands u 0) : ∃ s, u = .zero s := by
  have hpos {m : ℕ} (e : ℤ) (hm : 0 < m) : (m : ℚ) * 2 ^ e ≠ 0 :=
    mul_ne_zero (by exact_mod_cast hm.ne') (by positivity)
  generalize hv : (0 : ℚ) = v at h
  cases h with
  | zero s => exact ⟨s, rfl⟩
  | positive hm => exact absurd hv.symm (hpos _ hm)
  | negative hm => exact absurd (neg_eq_zero.mp hv.symm) (hpos _ hm)

theorem rounded_zero : Rounded 0 0 := by
  have hzero := rounded_self (⟨by decide, le_rfl, .inl rfl⟩ : Fits 0 (-1074))
  rwa [Nat.cast_zero, zero_mul] at hzero

/-- The product of two doubles that are not negative. -/
theorem exists_stands_mul {a b : Float} (ha : Stands a.toModel.unpack v)
    (hb : Stands b.toModel.unpack w) (hv : 0 ≤ v) (hw : 0 < w) (hsmall : v * w < 2 ^ 1022) :
    ∃ r, Stands (a * b).toModel.unpack r ∧ Rounded (v * w) r := by
  obtain ⟨n, f, hn, hfits', hb', rfl⟩ := pos_of_stands hb hw
  change ∃ r, Stands (Float.Model.pack (UnpackedFloat.mul doubleFormat a.toModel.unpack
    b.toModel.unpack)).unpack r ∧ _
  rw [hb']
  rcases hv.eq_or_lt with rfl | hv
  · obtain ⟨s, ha'⟩ := zero_of_stands ha
    rw [ha', zero_mul]
    exact ⟨0, by rw [UnpackedFloat.mul, unpack_pack_zero]; exact .zero _, rounded_zero⟩
  · obtain ⟨m, e, hm, hfits, ha', rfl⟩ := pos_of_stands ha hv
    rw [ha']
    have hvalue : (m * 2 ^ e * (n * 2 ^ f) : ℚ) = (m * n : ℕ) * 2 ^ (e + f) := by
      rw [zpow_add₀ two_ne_zero]
      push_cast
      ring
    have hbits : 2 ^ 52 ≤ m * n ∨ e + f ≤ -1074 := by
      rcases hfits.full with he | hm
      · rcases hfits'.full with hf | hn
        · omega
        · exact .inl (hn.trans (Nat.le_mul_of_pos_left n hm))
      · exact .inl (hm.trans (Nat.le_mul_of_pos_right m hn))
    have hrep : Represents (.ofMantissaAndAccuracy (m * n) .exact) (m * n : ℕ) :=
      represents_exact _
    rw [hvalue] at hsmall ⊢
    exact exists_stands_round hrep hbits hsmall

/-- The quotient of two mantissas has enough bits. -/
theorem divCore_bits (hm : 0 < m) (hn : 0 < n) (e f : ℤ) :
    2 ^ 52 ≤ (divCore doubleFormat m e n f).1 ∨ (divCore doubleFormat m e n f).2.1 ≤ -1074 := by
  have hbits : (doubleFormat.mantissaBits : ℤ) = 53 := rfl
  have hleast : doubleFormat.minExponent = -1074 := rfl
  have hn' : n < 2 ^ (n.log2 + 1) := Nat.lt_log2_self
  simp only [divCore, Float.Model.Format.targetExponent, totalExponent, hbits, hleast]
  set t : ℤ := min (e - f) (max (m.log2 + 1 + e - (n.log2 + 1 + f) - 53) (-1074)) with ht
  by_cases hle : t ≤ -1074
  · exact .inr hle
  · refine .inl ((Nat.le_div_iff_mul_le hn).mpr ?_)
    rw [Nat.shiftLeft_eq]
    calc 2 ^ 52 * n ≤ 2 ^ 52 * 2 ^ (n.log2 + 1) := Nat.mul_le_mul_left _ hn'.le
      _ = 2 ^ (52 + (n.log2 + 1)) := (pow_add ..).symm
      _ ≤ 2 ^ (m.log2 + (e - f - t).toNat) := Nat.pow_le_pow_right two_pos (by omega)
      _ = 2 ^ m.log2 * 2 ^ (e - f - t).toNat := pow_add ..
      _ ≤ m * 2 ^ (e - f - t).toNat := Nat.mul_le_mul_right _ (Nat.log2_self_le hm.ne')

/-- The quotient of two doubles that are not negative. -/
theorem exists_stands_div {a b : Float} (ha : Stands a.toModel.unpack v)
    (hb : Stands b.toModel.unpack w) (hv : 0 ≤ v) (hw : 0 < w) (hsmall : v / w < 2 ^ 1022) :
    ∃ r, Stands (a / b).toModel.unpack r ∧ Rounded (v / w) r := by
  obtain ⟨n, f, hn, hfits', hb', rfl⟩ := pos_of_stands hb hw
  change ∃ r, Stands (Float.Model.pack (UnpackedFloat.div doubleFormat a.toModel.unpack
    b.toModel.unpack)).unpack r ∧ _
  rw [hb']
  rcases hv.eq_or_lt with rfl | hv
  · obtain ⟨s, ha'⟩ := zero_of_stands ha
    rw [ha', zero_div]
    exact ⟨0, by rw [UnpackedFloat.div, unpack_pack_zero]; exact .zero _, rounded_zero⟩
  · obtain ⟨m, e, hm, hfits, ha', rfl⟩ := pos_of_stands ha hv
    rw [ha']
    have hbits := divCore_bits hm hn e f
    set t : ℤ := (divCore doubleFormat m e n f).2.1 with ht
    have hshift : ((e - f - t).toNat : ℤ) = e - f - t :=
      Int.toNat_of_nonneg (sub_nonneg.mpr (min_le_left ..))
    have hvalue : (m * 2 ^ e / (n * 2 ^ f) : ℚ) =
        (m <<< (e - f - t).toNat : ℕ) / n * 2 ^ t := by
      have hpow : (2 : ℚ) ^ (e - f - t).toNat * 2 ^ t = 2 ^ e / 2 ^ f := by
        rw [← zpow_natCast, hshift, ← zpow_add₀ two_ne_zero, sub_add_cancel,
          zpow_sub₀ two_ne_zero]
      rw [Nat.shiftLeft_eq, div_mul_eq_mul_div, Nat.cast_mul, Nat.cast_pow, Nat.cast_ofNat,
        mul_assoc, hpow, mul_div_mul_comm, mul_div_right_comm]
    rw [hvalue] at hsmall ⊢
    exact exists_stands_round (represents_div hn) hbits hsmall

/-- A double of an integer. -/
theorem exists_stands_toFloat (k : UInt64) :
    ∃ r, Stands k.toFloat.toModel.unpack r ∧ Rounded k.toNat r := by
  change ∃ r, Stands (Float.Model.pack (UnpackedFloat.normalize doubleFormat (k.toNat : ℤ) 0
    .positive)).unpack r ∧ _
  have hlt : (k.toNat : ℚ) < 2 ^ 1022 := by
    have hpow : (2 : ℚ) ^ 64 ≤ 2 ^ 1022 := pow_le_pow_right₀ one_le_two (by decide)
    exact lt_of_lt_of_le (by exact_mod_cast k.toNat_lt) hpow
  generalize k.toNat = n at hlt
  rcases Nat.eq_zero_or_pos n with rfl | hn
  · exact ⟨0, .zero _, by rw [Nat.cast_zero]; exact rounded_zero⟩
  · have hgt : compare (n : ℤ) 0 = .gt := compare_gt_iff_gt.mpr (by omega)
    rw [UnpackedFloat.normalize, hgt]
    dsimp only
    rw [Int.toNat_natCast, UnpackedFloat.round, targetExponent_eq, decreaseExponent]
    set k : ℕ := (0 - max ((n.log2 : ℤ) + 0 - 52) (-1074)).toNat with hk
    have hbits : 2 ^ 52 ≤ n <<< k ∨ (0 - k : ℤ) ≤ -1074 := by
      refine .inl ?_
      rw [Nat.shiftLeft_eq]
      calc 2 ^ 52 ≤ 2 ^ (n.log2 + k) := Nat.pow_le_pow_right two_pos (by omega)
        _ = 2 ^ n.log2 * 2 ^ k := pow_add ..
        _ ≤ n * 2 ^ k := Nat.mul_le_mul_right _ (Nat.log2_self_le hn.ne')
    have hvalue : (n : ℚ) = (n <<< k : ℕ) * 2 ^ (0 - k : ℤ) := by
      rw [Nat.shiftLeft_eq, zero_sub, zpow_neg, zpow_natCast]
      push_cast
      field_simp
    have hrep : Represents (.ofMantissaAndAccuracy (n <<< k) .exact) (n <<< k : ℕ) :=
      represents_exact _
    rw [hvalue] at hlt ⊢
    exact exists_stands_round hrep hbits hlt

end

end Raceway.Decimal
