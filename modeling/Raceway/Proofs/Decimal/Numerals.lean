import Raceway.Decimal.Reading
import Raceway.Proofs.Decimal.Rounding
/-!
# Writing numbers and reading them back

A number is written with ASCII digits, at most one minus in front and at most one point inside.
Reading takes such a text apart into the same digits. For a double the digits that are read stand
for the decimal that was selected when it was written, so the double nearest to them is the one that
was written.

## Main results

* `Raceway.Decimal.readInt?_natText`: an integer is read back.
* `Raceway.Decimal.readNumeral?_positional`: positional notation is read as what its digits stand
  for.
* `Raceway.Decimal.readDouble?_doubleText`: a double is read back.
-/

namespace Raceway.Decimal

/-! ### Digits -/

theorem digitsValue_eq (ds : List Char) : digitsValue ds = Nat.ofDigitChars 10 ds 0 :=
  rfl

/-- The digits behind other digits move those to the left. -/
theorem digitsValue_append (a b : List Char) :
    digitsValue (a ++ b) = digitsValue a * 10 ^ b.length + digitsValue b := by
  rw [digitsValue_eq, Nat.ofDigitChars_append, Nat.ofDigitChars_eq_ofDigitChars_zero, mul_comm]
  rfl

theorem digitsValue_replicate_zero (n : ℕ) : digitsValue (List.replicate n '0') = 0 := by
  rw [digitsValue_eq, Nat.ofDigitChars_replicate_zero, mul_zero]

theorem digitsValue_natText (n : ℕ) : digitsValue (natText n) = n :=
  Nat.ofDigitChars_ten_toDigits

theorem isDigit_of_mem_natText {n : ℕ} {c : Char} (h : c ∈ natText n) : c.isDigit = true :=
  Nat.isDigit_of_mem_toDigits (by decide) (by decide) h

theorem natText_ne_nil (n : ℕ) : natText n ≠ [] :=
  Nat.toDigits_ne_nil

/-- A text of digits does not start with a sign. -/
theorem takeSign_of_isDigit {c : Char} (h : c.isDigit = true) (rest : List Char) :
    takeSign (c :: rest) = (false, c :: rest) := by
  unfold takeSign
  split
  · rename_i heq
    cases heq
    exact absurd h (by decide)
  · rename_i heq
    cases heq
    exact absurd h (by decide)
  · rfl

theorem spanDigits_append {ds : List Char} (hd : ∀ c ∈ ds, c.isDigit = true) (rest : List Char) :
    spanDigits (ds ++ rest) = (ds ++ (spanDigits rest).1, (spanDigits rest).2) := by
  rw [spanDigits, List.takeWhile_append_of_pos hd, List.dropWhile_append_of_pos hd, spanDigits]

theorem spanDigits_self {ds : List Char} (hd : ∀ c ∈ ds, c.isDigit = true) :
    spanDigits ds = (ds, []) := by
  simpa [spanDigits] using spanDigits_append hd []

/-! ### Signs and integers -/

/-- The sign in front of a numeral, which is written only for a minus. -/
def signText (negative : Bool) : List Char :=
  if negative then ['-'] else []

/-- A numeral without a sign: digits and points, a digit in front. -/
structure IsUnsigned (body : List Char) : Prop where
  head : ∃ c rest, body = c :: rest ∧ c.isDigit = true
  chars : ∀ c ∈ body, c.isDigit = true ∨ c = '.'

theorem IsUnsigned.of_digits {ds : List Char} (hne : ds ≠ []) (hd : ∀ c ∈ ds, c.isDigit = true) :
    IsUnsigned ds := by
  obtain ⟨c, rest, rfl⟩ := List.exists_cons_of_ne_nil hne
  exact ⟨⟨c, rest, rfl, hd c List.mem_cons_self⟩, fun d hmem => .inl (hd d hmem)⟩

theorem isUnsigned_natText (n : ℕ) : IsUnsigned (natText n) :=
  .of_digits (natText_ne_nil n) fun _ => isDigit_of_mem_natText

theorem takeSign_signText {body : List Char} (h : IsUnsigned body) (negative : Bool) :
    takeSign (signText negative ++ body) = (negative, body) := by
  obtain ⟨c, rest, rfl, hc⟩ := h.head
  cases negative with
  | false => exact takeSign_of_isDigit hc rest
  | true => rfl

/-- What is read as an integer has digits only, and they and the sign make the integer. -/
theorem readInt?_signText {body : List Char} (h : IsUnsigned body) {negative : Bool} {k : ℤ}
    (hk : readInt? (signText negative ++ body) = some k) :
    (∀ c ∈ body, c.isDigit = true) ∧ k = signed negative (digitsValue body) := by
  simp only [readInt?, takeSign_signText h] at hk
  split_ifs at hk with hd
  exact ⟨List.all_eq_true.mp hd.2, (Option.some.inj hk).symm⟩

/-- An integer of a 64-bit signed word is read back. -/
theorem readInt?_natText {negative : Bool} {n : ℕ} (hmin : minInt64 ≤ signed negative n)
    (hmax : signed negative n ≤ maxInt64) :
    readInt? (signText negative ++ natText n) = some (signed negative n) := by
  simp only [readInt?, takeSign_signText (isUnsigned_natText n), digitsValue_natText]
  rw [if_pos ⟨natText_ne_nil n, List.all_eq_true.mpr fun _ => isDigit_of_mem_natText⟩,
    if_pos ⟨hmin, hmax⟩]

/-! ### Decimals -/

/-- A whole number in digits is read as those digits. -/
theorem readNumeral?_digits {ds : List Char} (hne : ds ≠ []) (hd : ∀ c ∈ ds, c.isDigit = true) :
    readNumeral? ds = some (digitsValue ds, 0) := by
  simp [readNumeral?, spanDigits_self hd, spanFraction, readExponent?, hne]

/-- Digits around a point are read as those digits, at an exponent for the fraction. -/
theorem readNumeral?_point {whole fraction : List Char} (hne : whole ≠ [])
    (hw : ∀ c ∈ whole, c.isDigit = true) (hf : ∀ c ∈ fraction, c.isDigit = true) :
    readNumeral? (whole ++ '.' :: fraction) =
      some (digitsValue (whole ++ fraction), -(fraction.length : ℤ)) := by
  have hspan : spanDigits (whole ++ '.' :: fraction) = (whole, '.' :: fraction) := by
    rw [spanDigits_append hw]
    simp [spanDigits]
  simp [readNumeral?, hspan, spanFraction, spanDigits_self hf, readExponent?, hne]

/-- Dropping trailing zeros keeps the number, at an exponent for the zeros. -/
theorem dropZeros_spec (ds : List Char) :
    ds = (dropZeros ds).1 ++ List.replicate (dropZeros ds).2 '0' := by
  have hsplit : ds = (dropZeros ds).1 ++ (ds.reverse.takeWhile (· == '0')).reverse := by
    rw [dropZeros, ← List.reverse_append, List.takeWhile_append_dropWhile, List.reverse_reverse]
  have hlen : (dropZeros ds).2 = (ds.reverse.takeWhile (· == '0')).reverse.length := by
    have := congrArg List.length hsplit
    rw [List.length_append] at this
    change ds.length - (dropZeros ds).1.length = _
    omega
  rw [hlen]
  nth_rewrite 1 [hsplit]
  congr 1
  refine List.eq_replicate_of_mem fun c hc => ?_
  exact beq_iff_eq.mp (List.all_eq_true.mp List.all_takeWhile c (List.mem_reverse.mp hc))

theorem digitsValue_append_zeros (ds : List Char) (k : ℕ) :
    digitsValue (ds ++ List.replicate k '0') = digitsValue ds * 10 ^ k := by
  rw [digitsValue_append, digitsValue_replicate_zero, List.length_replicate, add_zero]

theorem digitsValue_zeros_append (k : ℕ) (ds : List Char) :
    digitsValue (List.replicate k '0' ++ ds) = digitsValue ds := by
  rw [digitsValue_append, digitsValue_replicate_zero, zero_mul, zero_add]

theorem isDigit_of_mem_zeros {k : ℕ} {c : Char} (h : c ∈ List.replicate k '0') :
    c.isDigit = true := by
  rw [List.eq_of_mem_replicate h]
  decide

/-- Positional notation is read as the number that its digits stand for, without a positive
exponent. -/
theorem readNumeral?_positional {ds : List Char} (hd : ∀ c ∈ ds, c.isDigit = true) (point : ℤ) :
    ∃ (n : ℕ) (e : ℤ), readNumeral? (positional ds point) = some (n, e) ∧ e ≤ 0 ∧
      (n * 10 ^ e : ℚ) = digitsValue ds * 10 ^ (point - ds.length) := by
  rw [positional]
  split_ifs with h1 h2
  · -- The point stands in front of all digits.
    have hf : ∀ c ∈ List.replicate (-point).toNat '0' ++ ds, c.isDigit = true :=
      List.forall_mem_append.mpr ⟨fun _ => isDigit_of_mem_zeros, hd⟩
    have hw : ∀ c ∈ List.replicate 1 '0', c.isDigit = true := fun _ => isDigit_of_mem_zeros
    change ∃ (n : ℕ) (e : ℤ), readNumeral? (List.replicate 1 '0' ++
      '.' :: (List.replicate (-point).toNat '0' ++ ds)) = some (n, e) ∧ _
    refine ⟨_, _, readNumeral?_point (List.cons_ne_nil _ _) hw hf, by simp, ?_⟩
    rw [digitsValue_zeros_append, digitsValue_zeros_append, List.length_append,
      List.length_replicate]
    congr 2
    omega
  · -- Zeros stand between the digits and the point.
    have hne : ds ++ List.replicate (point.toNat - ds.length) '0' ≠ [] := by
      refine List.ne_nil_of_length_pos ?_
      rw [List.length_append, List.length_replicate]
      omega
    refine ⟨_, _, readNumeral?_digits hne
      (List.forall_mem_append.mpr ⟨hd, fun _ => isDigit_of_mem_zeros⟩), le_rfl, ?_⟩
    rw [digitsValue_append_zeros, zpow_zero, mul_one, Nat.cast_mul, Nat.cast_pow, ← zpow_natCast]
    congr 2
    omega
  · -- The point stands between two digits.
    have hne : ds.take point.toNat ≠ [] := by
      refine List.ne_nil_of_length_pos ?_
      rw [List.length_take]
      omega
    rw [List.append_assoc, List.singleton_append]
    refine ⟨_, _, readNumeral?_point hne (fun c hc => hd c (List.mem_of_mem_take hc))
      (fun c hc => hd c (List.mem_of_mem_drop hc)), by simp, ?_⟩
    rw [List.take_append_drop, List.length_drop]
    congr 2
    omega

/-- Positional notation is a numeral without a sign. -/
theorem isUnsigned_positional {ds : List Char} (hd : ∀ c ∈ ds, c.isDigit = true) (point : ℤ) :
    IsUnsigned (positional ds point) := by
  rw [positional]
  split_ifs with h1 h2
  · refine ⟨⟨'0', _, rfl, by decide⟩, ?_⟩
    simp only [List.mem_append, List.mem_cons, List.not_mem_nil, or_false]
    rintro c (((rfl | rfl) | hc) | hc)
    · exact .inl (by decide)
    · exact .inr rfl
    · exact .inl (isDigit_of_mem_zeros hc)
    · exact .inl (hd c hc)
  · refine .of_digits (List.ne_nil_of_length_pos ?_)
      (List.forall_mem_append.mpr ⟨hd, fun _ => isDigit_of_mem_zeros⟩)
    rw [List.length_append, List.length_replicate]
    omega
  · have htake : IsUnsigned (ds.take point.toNat) := by
      refine .of_digits (List.ne_nil_of_length_pos ?_) fun c hc => hd c (List.mem_of_mem_take hc)
      rw [List.length_take]
      omega
    obtain ⟨c, rest, hcons, hc⟩ := htake.head
    refine ⟨⟨c, rest ++ '.' :: ds.drop point.toNat, by rw [hcons]; simp, hc⟩, ?_⟩
    simp only [List.mem_append, List.mem_cons, List.not_mem_nil, or_false]
    rintro c ((hc | rfl) | hc)
    · exact htake.chars c hc
    · exact .inr rfl
    · exact .inl (hd c (List.mem_of_mem_drop hc))

/-- The significant digits of a decimal are digits, and stand for it. -/
theorem Numeral.significant_spec (d : Numeral) :
    (∀ c ∈ d.significant.1, c.isDigit = true) ∧
      (digitsValue d.significant.1 * 10 ^ (d.significant.2 - d.significant.1.length) : ℚ) =
        d.value := by
  have hsplit := dropZeros_spec (natText d.digits)
  generalize hk : dropZeros (natText d.digits) = kept at hsplit
  have hsig : d.significant = (kept.1, (natText d.digits).length + d.exp) := by
    rw [Numeral.significant, hk]
  have hdigits : d.digits = digitsValue kept.1 * 10 ^ kept.2 := by
    rw [← digitsValue_append_zeros, ← hsplit, digitsValue_natText]
  have hlen : (natText d.digits).length = kept.1.length + kept.2 := by
    rw [congrArg List.length hsplit, List.length_append, List.length_replicate]
  rw [hsig, hlen]
  refine ⟨fun c hc => isDigit_of_mem_natText (n := d.digits) ?_, ?_⟩
  · rw [hsplit]
    exact List.mem_append_left _ hc
  · rw [Numeral.value, hdigits]
    push_cast
    rw [show (kept.1.length + kept.2 + d.exp - kept.1.length : ℤ) = kept.2 + d.exp by ring,
      zpow_add₀ (by norm_num), zpow_natCast, mul_assoc]

/-! ### Doubles -/

theorem toLower_of_not_isAlpha {c : Char} (h : c.isAlpha = false) : c.toLower = c := by
  rw [Char.toLower, dif_neg]
  intro hupper
  rw [Char.isAlpha, Char.isUpper, decide_eq_true hupper, Bool.true_or] at h
  exact Bool.noConfusion h

/-- A text that does not start with a letter is not a word that does. -/
theorem isWord_of_not_isAlpha {word : String} (hw : word.toList.head?.all Char.isAlpha = true)
    {c : Char} (hc : c.isAlpha = false) (rest : List Char) : isWord word (c :: rest) = false := by
  rw [isWord, List.map_cons, beq_eq_false_iff_ne]
  intro h
  rw [← h, List.head?_cons, Option.all_some, toLower_of_not_isAlpha hc, hc] at hw
  exact absurd hw Bool.false_ne_true

theorem isAlpha_of_isDigit {c : Char} (h : c.isDigit = true) : c.isAlpha = false := by
  simp only [Char.isDigit, Char.isAlpha, Char.isUpper, Char.isLower, Bool.and_eq_true,
    Bool.or_eq_false_iff, Bool.and_eq_false_iff, decide_eq_true_eq, decide_eq_false_iff_not,
    UInt32.le_iff_toNat_le, ge_iff_le, Char.reduceVal, UInt32.reduceToNat] at *
  omega

/-- The bits of a zero are those of its sign. -/
theorem nearestDouble_zero {x : Float} (h : (x == 0) = true) :
    nearestDouble (negativeDouble x) 0 0 = x := by
  obtain ⟨he, hm⟩ := beq_zero_iff.mp h
  have hbits : (Binary.ofDouble x).bits = 0 := by
    rw [Binary.ofDouble, Binary.ofDoubleBits_eq, if_pos he, hm]
    rfl
  have hx := Binary.bits_ofDouble x
  rw [hbits] at hx
  rw [nearestDouble, if_pos rfl, ← hx, UInt64.ofNat_toNat, ofBits_toBits]

theorem toList_sign (x : Float) :
    (if negativeDouble x then "-" else "").toList = signText (negativeDouble x) := by
  cases negativeDouble x <;> rfl

/-- A zero is written with its sign and one digit. -/
theorem doubleText_zero {x : Float} (hf : x.isFinite = true) (h0 : (x == 0) = true) :
    (doubleText x).toList = signText (negativeDouble x) ++ natText 0 := by
  obtain ⟨hnan, hinf⟩ := isNaN_isInf_of_isFinite hf
  simp only [doubleText, hnan, hinf, h0, Bool.false_eq_true, if_false, if_true]
  rw [String.toList_append, toList_sign]
  rfl

theorem doubleText_of_ne_zero {x : Float} (hf : x.isFinite = true) (h0 : (x == 0) = false) :
    (doubleText x).toList = signText (negativeDouble x) ++ plainText (Binary.ofDouble x) := by
  obtain ⟨hnan, hinf⟩ := isNaN_isInf_of_isFinite hf
  simp only [doubleText, hnan, hinf, h0, Bool.false_eq_true, if_false]
  rw [String.toList_append, toList_sign, String.toList_ofList]

/-- A finite double is written as its sign and a numeral, and is the double nearest to what the
numeral is read as. -/
theorem doubleText_spec {x : Float} (hf : x.isFinite = true) :
    ∃ body, (doubleText x).toList = signText (negativeDouble x) ++ body ∧ IsUnsigned body ∧
      ∃ n e, readNumeral? body = some (n, e) ∧ nearestDouble (negativeDouble x) n e = x := by
  cases h0 : x == 0 with
  | true =>
    exact ⟨natText 0, doubleText_zero hf h0, isUnsigned_natText 0, 0, 0, rfl,
      nearestDouble_zero h0⟩
  | false =>
    have hsig := (Binary.ofDouble x).shortest .up |>.significant_spec
    obtain ⟨n, e, hread, he, hvalue⟩ :=
      readNumeral?_positional hsig.1 ((Binary.ofDouble x).shortest .up).significant.2
    refine ⟨plainText (Binary.ofDouble x), doubleText_of_ne_zero hf h0,
      isUnsigned_positional hsig.1 _, n, e, hread, nearestDouble_eq hf h0 he ?_⟩
    rw [hvalue, hsig.2]
    exact (Binary.legal_ofDouble hf h0).rounds_shortest .up

/-- A finite double is read back. -/
theorem readDouble?_doubleText {x : Float} (hf : x.isFinite = true) :
    readDouble? (doubleText x).toList = some x := by
  obtain ⟨body, htext, hbody, n, e, hread, hnear⟩ := doubleText_spec hf
  obtain ⟨c, rest, hcons, hc⟩ := hbody.head
  have hword {word : String} (hw : word.toList.head?.all Char.isAlpha = true) :
      isWord word body = false := by
    rw [hcons]
    exact isWord_of_not_isAlpha hw (isAlpha_of_isDigit hc) rest
  simp only [readDouble?, htext, takeSign_signText hbody]
  rw [hword (by decide), hword (by decide), hword (by decide), hread]
  simp [hnear]

end Raceway.Decimal
