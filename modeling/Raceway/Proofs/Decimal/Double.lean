import Mathlib
import Raceway.Decimal.Binary
import Raceway.Proofs.Decimal.Packing
/-!
# The bits of a double

The bits of a double are a sign, an exponent field and a mantissa field. The fields decide what the
double stands for, and the double is determined by its bits, so that a finite double is determined
by its sign and its magnitude.

## Main definitions

* `Raceway.Decimal.exponentField`, `Raceway.Decimal.mantissaField`: the fields of a word.
* `Raceway.Decimal.Reads`: what a word stands for, by its fields.

## Main results

* `Raceway.Decimal.reads_unpack`: the fields of a word decide what it stands for.
* `Raceway.Decimal.beq_zero_iff`: a double equals zero exactly when both of its fields are zero.
* `Raceway.Decimal.eq_of_beq`: equal doubles are the same, unless they are zeros.
-/

namespace Raceway.Decimal

open Float.Model Float.Model.UnpackedFloat

/-- The format of doubles. -/
abbrev doubleFormat : Float.Model.Format :=
  Float.Model.Format.binary64

/-- The exponent field of a word. -/
def exponentField (n : ℕ) : ℕ :=
  n / 2 ^ 52 % 2 ^ 11

/-- The mantissa field of a word. -/
def mantissaField (n : ℕ) : ℕ :=
  n % 2 ^ 52

/-! ### Fields -/

section Fields

variable (b : BitVec 64)

theorem toNat_unpackMantissa :
    (@unpackMantissa doubleFormat b).toNat = mantissaField b.toNat := by
  simp [unpackMantissa, mantissaField]

theorem toNat_unpackExponent :
    (@unpackExponent doubleFormat b).toNat = exponentField b.toNat := by
  simp [unpackExponent, exponentField, Nat.shiftRight_eq_div_pow]

theorem toNat_unpackSign :
    (Sign.ofBitVec (@unpackSign doubleFormat b)).toBitVec.toNat = b.toNat / 2 ^ 63 := by
  have hs (c : BitVec 1) : (Sign.ofBitVec c).toBitVec.toNat = c.toNat := by
    revert c
    decide
  have := b.isLt
  rw [hs]
  simp [unpackSign, Nat.shiftRight_eq_div_pow]
  omega

end Fields

theorem toNat_packComponents (s : Sign) (e : BitVec 11) (m : BitVec 52) :
    (packComponents doubleFormat s e m).toNat =
      s.toBitVec.toNat * 2 ^ 63 + e.toNat * 2 ^ 52 + m.toNat := by
  simp only [packComponents]
  rw [BitVec.toNat_append, ← Nat.shiftLeft_add_eq_or_of_lt m.isLt, BitVec.toNat_append,
    ← Nat.shiftLeft_add_eq_or_of_lt e.isLt]
  simp [Nat.shiftLeft_eq]
  omega

theorem exponentBias_double : (doubleFormat.exponentBias : ℤ) = 1023 :=
  rfl

/-! ### Unpacking -/

/-- What a word with the given sign stands for, by its fields. -/
inductive Reads (n : ℕ) (s : Sign) : UnpackedFloat → Prop
  | infinity (he : exponentField n = 2047) (hm : mantissaField n = 0) :
    Reads n s (.infinity s)
  | nan (he : exponentField n = 2047) (hm : mantissaField n ≠ 0) :
    Reads n s .notANumber
  | zero (he : exponentField n = 0) (hm : mantissaField n = 0) :
    Reads n s (.zero s)
  | subnormal (m : ℕ) (e : ℤ) (h : 0 < m) (he : exponentField n = 0)
      (hm : m = mantissaField n) (hx : e = -1074) :
    Reads n s (.finite s m e h)
  | normal (m : ℕ) (e : ℤ) (h : 0 < m) (h0 : 0 < exponentField n)
      (he : exponentField n < 2047) (hm : m = 2 ^ 52 + mantissaField n)
      (hx : e = exponentField n - 1075) :
    Reads n s (.finite s m e h)

theorem reads_unpack (b : BitVec 64) :
    Reads b.toNat (Sign.ofBitVec (@unpackSign doubleFormat b))
      (UnpackedFloat.unpack doubleFormat b) := by
  have hm := toNat_unpackMantissa b
  have he := toNat_unpackExponent b
  have hbias := exponentBias_double
  have hlt : exponentField b.toNat < 2 ^ 11 := Nat.mod_lt _ (by decide)
  simp only [UnpackedFloat.unpack]
  split_ifs with h1 h2 h3 h4
  · exact .infinity (by rw [← he, h1]; rfl) (by rw [← hm, h2]; rfl)
  · refine .nan (by rw [← he, h1]; rfl) fun h0 => h2 (BitVec.eq_of_toNat_eq ?_)
    rw [hm, h0]
    rfl
  · exact .zero (by rw [← he, h3]; rfl) (by rw [← hm, h4]; rfl)
  · have h0 : exponentField b.toNat = 0 := by rw [← he, h3]; rfl
    exact .subnormal _ _ _ h0 hm (by omega)
  · have hne0 : exponentField b.toNat ≠ 0 :=
      fun h => h3 (BitVec.eq_of_toNat_eq (by rw [he, h]; rfl))
    have hne1 : exponentField b.toNat ≠ 2047 :=
      fun h => h1 (BitVec.eq_of_toNat_eq (by rw [he, h]; rfl))
    exact .normal _ _ _ (by omega) (by omega) (by rw [toNat_implicit, hm]) (by omega)

/-! ### Doubles -/

/-- What a double stands for, by the fields of its bits. -/
theorem reads_toModel (x : Float) :
    Reads x.toBits.toNat (Sign.ofBitVec (@unpackSign doubleFormat x.toBits.toBitVec))
      x.toModel.unpack :=
  reads_unpack x.toBits.toBitVec

/-- The exponent field of a finite double is not the greatest one. -/
theorem exponentField_lt {x : Float} (h : x.isFinite = true) :
    exponentField x.toBits.toNat < 2047 := by
  have hr := reads_toModel x
  simp only [Float.isFinite, Float.Model.isFinite] at h
  generalize x.toModel.unpack = u at hr h
  cases hr with
  | infinity => simp [UnpackedFloat.isFinite] at h
  | nan => simp [UnpackedFloat.isFinite] at h
  | zero he => omega
  | subnormal _ _ _ he => omega
  | normal _ _ _ _ he => exact he

/-- A finite double is neither infinite nor undefined. -/
theorem isNaN_isInf_of_isFinite {x : Float} (h : x.isFinite = true) :
    x.isNaN = false ∧ x.isInf = false := by
  simp only [Float.isFinite, Float.isNaN, Float.isInf, Float.Model.isFinite, Float.Model.isNaN,
    Float.Model.isInf] at *
  cases hu : x.toModel.unpack <;> simp_all [UnpackedFloat.isFinite, UnpackedFloat.isNaN,
    UnpackedFloat.isInf]

theorem compare_self_finite {u : UnpackedFloat} (h : u.isFinite = true) :
    u.compare u = some .eq := by
  cases u with
  | infinity => simp [UnpackedFloat.isFinite] at h
  | notANumber => simp [UnpackedFloat.isFinite] at h
  | zero => rfl
  | finite s m e => cases s <;> simp [UnpackedFloat.compare]

/-- A finite double equals itself. -/
theorem beq_self_of_isFinite {x : Float} (h : x.isFinite = true) : (x == x) = true := by
  change (x.toModel.unpack.compare x.toModel.unpack == some .eq) = true
  rw [compare_self_finite h]
  rfl

theorem unpack_zero : (0 : Float).toModel.unpack = .zero .positive := by
  rfl

/-- A double equals zero exactly when its magnitude is zero. -/
theorem beq_zero_iff {x : Float} :
    (x == 0) = true ↔ exponentField x.toBits.toNat = 0 ∧ mantissaField x.toBits.toNat = 0 := by
  have hr := reads_toModel x
  change (x.toModel.unpack.compare (0 : Float).toModel.unpack == some .eq) = true ↔ _
  rw [unpack_zero]
  generalize x.toModel.unpack = u at hr
  generalize Sign.ofBitVec _ = s at hr
  cases hr with
  | infinity he => cases s <;> simp [UnpackedFloat.compare, he]
  | nan he => simp [UnpackedFloat.compare, he]
  | zero he hm => simp [UnpackedFloat.compare, he, hm]
  | subnormal m e h he hm => cases s <;> simp [UnpackedFloat.compare, he] <;> omega
  | normal m e h h0 => cases s <;> simp [UnpackedFloat.compare] <;> omega

theorem zero_beq_comm (x : Float) : ((0 : Float) == x) = (x == 0) := by
  change ((0 : Float).toModel.unpack.compare x.toModel.unpack == some .eq) =
    (x.toModel.unpack.compare (0 : Float).toModel.unpack == some .eq)
  rw [unpack_zero]
  cases x.toModel.unpack with
  | infinity s => cases s <;> rfl
  | notANumber => rfl
  | zero => rfl
  | finite s => cases s <;> rfl

/-- Doubles that stand for the same are the same. -/
theorem unpack_inj {x y : Float} (h : x.toModel.unpack = y.toModel.unpack) : x = y := by
  have hx : UnpackedFloat.pack doubleFormat x.toModel.unpack = x.toBits.toBitVec :=
    pack_unpack (by decide) x.toModel.valid
  have hy : UnpackedFloat.pack doubleFormat y.toModel.unpack = y.toBits.toBitVec :=
    pack_unpack (by decide) y.toModel.valid
  have hbits : x.toBits = y.toBits := by
    refine UInt64.eq_of_toBitVec_eq ?_
    rw [← hx, ← hy, h]
  rw [← ofBits_toBits x, hbits, ofBits_toBits]

theorem eq_of_compare {u v : UnpackedFloat} (h : u.compare v = some .eq)
    (h0 : v.compare (.zero .positive) ≠ some .eq) : u = v := by
  cases u with
  | notANumber => simp [UnpackedFloat.compare] at h
  | infinity s => cases s <;> cases v with
    | infinity t => cases t <;> simp_all [UnpackedFloat.compare]
    | _ => simp_all [UnpackedFloat.compare]
  | zero s => cases v with
    | zero => exact absurd rfl h0
    | infinity t => cases t <;> simp [UnpackedFloat.compare] at h
    | finite t => cases t <;> simp [UnpackedFloat.compare] at h
    | notANumber => simp [UnpackedFloat.compare] at h
  | finite s => cases s <;> cases v with
    | infinity t => cases t <;> simp [UnpackedFloat.compare] at h
    | finite t => cases t <;> simp_all [UnpackedFloat.compare]
    | _ => simp [UnpackedFloat.compare] at h

/-- Equal doubles are the same, unless they are zeros, which may differ in their signs. -/
theorem eq_of_beq {x y : Float} (h : (x == y) = true) (h0 : (y == 0) = false) : x = y := by
  refine unpack_inj (eq_of_compare (beq_iff_eq.mp h) fun hc => ?_)
  have : (y == 0) = true := by
    change (y.toModel.unpack.compare (0 : Float).toModel.unpack == some .eq) = true
    rw [unpack_zero, hc]
    rfl
  exact absurd (h0.symm.trans this) Bool.false_ne_true

theorem eq_zero_of_compare {v : UnpackedFloat} (h : v.compare (.zero .positive) = some .eq) :
    ∃ s, v = .zero s := by
  cases v with
  | zero s => exact ⟨s, rfl⟩
  | infinity s => cases s <;> simp [UnpackedFloat.compare] at h
  | notANumber => simp [UnpackedFloat.compare] at h
  | finite s => cases s <;> simp [UnpackedFloat.compare] at h

/-- Comparing with a zero does not depend on its sign. -/
theorem beq_of_beq_zero {y : Float} (hy : (y == 0) = true) (x : Float) : (x == y) = (x == 0) := by
  obtain ⟨s, hs⟩ := eq_zero_of_compare (beq_iff_eq.mp hy)
  change (x.toModel.unpack.compare y.toModel.unpack == some .eq) =
    (x.toModel.unpack.compare (0 : Float).toModel.unpack == some .eq)
  rw [hs, unpack_zero]
  cases x.toModel.unpack with
  | infinity t => cases t <;> rfl
  | notANumber => rfl
  | zero => rfl
  | finite t => cases t <;> rfl

end Raceway.Decimal
