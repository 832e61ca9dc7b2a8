import Mathlib
/-!
# Unpacking and packing

The word of a float is a sign, an exponent field and a mantissa field. Unpacking tells from the
fields what the word stands for, and packing that again gives the word back, in every format with
more than one bit for the exponent. The only words that are not packed again as they were are those
of the undefined values, of which just one counts as valid.

## Main results

* `Raceway.Decimal.pack_unpack`: unpacking a valid word and packing it again gives the word.
* `Raceway.Decimal.ofBits_toBits` and `Raceway.Decimal.single_ofBits_toBits`: a float is determined
  by its bits.
-/

namespace Raceway.Decimal

open Float.Model Float.Model.UnpackedFloat

variable {S : Float.Model.Format}

/-! ### Fields -/

/-- A word is put together from its fields. -/
theorem packComponents_unpack (b : BitVec S.numBits) :
    packComponents S (Sign.ofBitVec (unpackSign b)) (unpackExponent b) (unpackMantissa b) = b := by
  have hm := S.hm
  have he := S.he
  have hsign (c : BitVec 1) : (Sign.ofBitVec c).toBitVec = c := by
    revert c
    decide
  rw [packComponents, hsign]
  ext i hi
  simp only [unpackSign, unpackExponent, unpackMantissa, BitVec.extractLsb]
  grind

/-- The implicit bit stands in front of the mantissa field. -/
theorem toNat_implicit {n : ℕ} (m : BitVec n) : (1#1 ++ m).toNat = 2 ^ n + m.toNat := by
  rw [BitVec.toNat_append, ← Nat.shiftLeft_add_eq_or_of_lt m.isLt]
  simp [Nat.shiftLeft_eq]

/-! ### Packing -/

/-- A mantissa below the implicit bit is packed as a subnormal one. -/
theorem pack_subnormal (hexp : 1 < S.exponentBits) (s : Sign)
    {m : BitVec S.mantissaBitsWithoutImplicit} {e : ℤ} (hpos : 0 < m.toNat)
    (he : e + S.exponentBias + S.mantissaBitsWithoutImplicit = 1) :
    UnpackedFloat.pack S (.finite s m.toNat e hpos) = packComponents S s 0 m := by
  have hfew : 2 ^ 2 ≤ 2 ^ S.exponentBits := Nat.pow_le_pow_right (by decide) hexp
  have hlog : m.toNat.log2 < S.mantissaBitsWithoutImplicit := (Nat.log2_lt hpos.ne').mpr m.isLt
  simp only [UnpackedFloat.pack]
  rw [he, if_neg (by change ¬ _ ≤ 2; omega), if_neg (by rw [Format.mantissaBits]; omega),
    BitVec.ofNat_toNat, BitVec.setWidth_eq]
  rfl

/-- A mantissa with the implicit bit in front is packed without it. -/
theorem pack_normal (s : Sign) {x : BitVec S.exponentBits}
    {m : BitVec S.mantissaBitsWithoutImplicit} {e : ℤ} (hpos : 0 < (1#1 ++ m).toNat)
    (hx : x ≠ -1#_) (he : e + S.exponentBias + S.mantissaBitsWithoutImplicit = x.toNat) :
    UnpackedFloat.pack S (.finite s (1#1 ++ m).toNat e hpos) = packComponents S s x m := by
  have hlt : x.toNat + 1 < 2 ^ S.exponentBits := by
    have hne : x.toNat ≠ 2 ^ S.exponentBits - 1 := fun h => hx <| BitVec.eq_of_toNat_eq <| by
      rw [h, BitVec.neg_one_eq_allOnes, BitVec.toNat_allOnes]
    have := x.isLt
    omega
  have hlog : (1#1 ++ m).toNat.log2 = S.mantissaBitsWithoutImplicit := by
    rw [Nat.log2_eq_iff hpos.ne', toNat_implicit]
    have := m.isLt
    exact ⟨Nat.le_add_right .., by rw [pow_succ]; omega⟩
  simp only [UnpackedFloat.pack]
  rw [he, Int.toNat_natCast, if_neg (by omega),
    if_pos (by rw [hlog, Format.mantissaBits, Nat.add_comm]), BitVec.ofNat_toNat,
    BitVec.setWidth_eq, BitVec.ofNat_toNat, BitVec.setWidth_append_eq_right]

/-- Unpacking a valid word and packing it again gives the word. -/
theorem pack_unpack (hexp : 1 < S.exponentBits) {b : BitVec S.numBits} (h : S.Valid b) :
    UnpackedFloat.pack S (UnpackedFloat.unpack S b) = b := by
  have hfields := packComponents_unpack b
  simp only [UnpackedFloat.unpack]
  split_ifs with hmax hzero hmin hzero
  · rwa [hmax, hzero] at hfields
  · exact (h.eq_packedNaN hmax hzero).symm
  · rwa [hmin, hzero] at hfields
  · rw [pack_subnormal hexp _ _ (by rw [hmin, BitVec.toNat_ofNat, Nat.zero_mod]; omega)]
    rwa [hmin] at hfields
  · exact (pack_normal _ _ hmax (by omega)).trans hfields

/-! ### Floats -/

/-- A double is determined by its bits. -/
theorem ofBits_toBits (x : Float) : Float.ofBits x.toBits = x := by
  obtain ⟨⟨w, hw⟩⟩ := x
  have h := pack_unpack (by decide) hw
  simp only [Float.ofBits, Float.toBits, Float.Model.ofBits, Float.Model.pack]
  congr 2
  exact UInt64.eq_of_toBitVec_eq h

/-- A float of single precision is determined by its bits. -/
theorem single_ofBits_toBits (x : Float32) : Float32.ofBits x.toBits = x := by
  obtain ⟨⟨w, hw⟩⟩ := x
  have h := pack_unpack (by decide) hw
  simp only [Float32.ofBits, Float32.toBits, Float32.Model.ofBits, Float32.Model.pack]
  congr 2
  exact UInt32.eq_of_toBitVec_eq h

end Raceway.Decimal
