import Mathlib
import Raceway.Op.Line
import Raceway.Proofs.Decimal.Numerals
import Raceway.Proofs.Results
import Raceway.Proofs.Text.Blank
/-!
# Writing values and reading them back

A value that is finite, and a seed that a signed word holds, is written as an argument that is read
back as the same value. The one exception is a zero with a minus sign, which is read as the integer
zero and comes back without its sign; the two are equal numbers.

## Main definitions

* `Raceway.Value.IsWritable`, `Raceway.Op.IsWritable`: what plan lines can write.
* `Raceway.unsignZero`, `Raceway.Op.unsignZeros`: what comes back.

## Main results

* `Raceway.Value.readArg_text`: a written value is read back.
* `Raceway.Op.unsignZeros_beq`: what comes back is equal to what was written.
-/

namespace Raceway

open Text Decimal

/-! ### What can be written, and what comes back -/

/-- Plan lines can write the value: a finite number, a seed of a signed word, or any other. -/
def Value.IsWritable : Value Float → Prop
  | number x => x.isFinite = true
  | seed n => (n.toNat : ℤ) ≤ maxInt64
  | _ => True

/-- Plan lines can write the operation. -/
def Op.IsWritable (op : Op Float) : Prop :=
  ∀ v ∈ op.values, v.IsWritable

/-- The number, without its sign if it is zero. -/
def unsignZero (x : Float) : Float :=
  if x == 0 then 0 else x

/-- The value with another number. -/
def Value.mapNumber {α β : Type} (f : α → β) : Value α → Value β
  | count n => .count n
  | seed n => .seed n
  | number x => .number (f x)
  | columns cols => .columns cols
  | side s => .side s

/-- The operation with other numbers. -/
def Op.mapNumbers {α β : Type} (f : α → β) : Op α → Op β
  | build rows cols => .build rows cols
  | deleteRows a b => .deleteRows a b
  | deleteTiles cols row => .deleteTiles cols row
  | randomHoles percent => .randomHoles (f percent)
  | jumpGaps count => .jumpGaps count
  | curve a b side degrees => .curve a b side (f degrees)
  | sBend a b degrees gain ratio => .sBend a b (f degrees) (f gain) (f ratio)
  | slopes low high segment => .slopes (f low) (f high) segment
  | marginStart count => .marginStart count
  | marginEnd count => .marginEnd count
  | smoothColumns passes => .smoothColumns passes
  | seed value => .seed value
  | fork a b gapStart gapEnd => .fork a b (f gapStart) (f gapEnd)
  | rejoin a b target => .rejoin a b (f target)
  | smoothHeights passes => .smoothHeights passes
  | fillAll => .fillAll
  | fillRows a b => .fillRows a b
  | fillTiles cols row => .fillTiles cols row

/-- The value, its number without a sign if it is zero. -/
def Value.unsignZero (v : Value Float) : Value Float :=
  v.mapNumber Raceway.unsignZero

/-- The operation, its zeros without signs. -/
def Op.unsignZeros (op : Op Float) : Op Float :=
  op.mapNumbers unsignZero

theorem Op.verb_mapNumbers {α β : Type} (f : α → β) (op : Op α) :
    (op.mapNumbers f).verb = op.verb := by
  cases op <;> rfl

theorem Op.values_mapNumbers {α β : Type} (f : α → β) (op : Op α) :
    (op.mapNumbers f).values = op.values.map (Value.mapNumber f) := by
  cases op <;> rfl

theorem unsignZero_beq {x : Float} (hf : x.isFinite = true) : (unsignZero x == x) = true := by
  rw [unsignZero]
  split_ifs with h
  · rw [zero_beq_comm, h]
  · exact beq_self_of_isFinite hf

/-- Equal numbers are the same when zeros lose their signs. -/
theorem unsignZero_eq_of_beq {x y : Float} (h : (x == y) = true) : unsignZero x = unsignZero y := by
  cases hy : y == 0 with
  | true =>
    rw [beq_of_beq_zero hy] at h
    rw [unsignZero, unsignZero, if_pos h, if_pos hy]
  | false => rw [eq_of_beq h hy]

/-- What comes back is equal to what was written. -/
theorem Op.unsignZeros_beq {op : Op Float} (h : op.IsWritable) : (op.unsignZeros == op) = true := by
  change instBEqOp.beq op.unsignZeros op = true
  simp only [IsWritable] at h
  cases op <;>
    simp_all only [values, List.forall_mem_cons, Value.IsWritable, unsignZeros, mapNumbers,
      instBEqOp.beq, unsignZero_beq, beq_self_eq_true, Bool.true_and] <;> rfl

/-! ### Characters of scalars -/

/-- The characters that names, numbers and sides are written with, underscores apart. -/
def isPlain (c : Char) : Bool :=
  c.isAlphanum || c == '-' || c == '.'

theorem ne_of_isPlain {c d : Char} (h : isPlain c = true) (hd : isPlain d = false) : c ≠ d := by
  rintro rfl
  rw [h] at hd
  exact Bool.noConfusion hd

theorem isPlain_of_isDigit {c : Char} (h : c.isDigit = true) : isPlain c = true := by
  simp [isPlain, Char.isAlphanum, h]

theorem isBlank_of_isPlain {c : Char} (h : isPlain c = true) : isBlank c = false := by
  have hc : 0x2D ≤ c.toNat ∧ c.toNat ≤ 0x7A := by
    simp only [isPlain, Char.isAlphanum, Char.isAlpha, Char.isUpper, Char.isLower, Char.isDigit,
      Bool.or_eq_true, Bool.and_eq_true, decide_eq_true_eq, beq_iff_eq, UInt32.le_iff_toNat_le,
      ge_iff_le, Char.reduceVal, UInt32.reduceToNat] at h
    rcases h with ((h | h) | rfl) | rfl
    · change (65 ≤ c.toNat ∧ c.toNat ≤ 90) ∨ (97 ≤ c.toNat ∧ c.toNat ≤ 122) at h
      omega
    · change 48 ≤ c.toNat ∧ c.toNat ≤ 57 at h
      omega
    · decide
    · decide
  simp only [isBlank, blankRanges, List.any_cons, List.any_nil, Bool.or_false,
    Bool.or_eq_false_iff, Bool.and_eq_false_iff, decide_eq_false_iff_not]
  omega

/-- A text of plain characters is a scalar. -/
theorem readArg_of_isPlain {t : List Char} (h : ∀ c ∈ t, isPlain c = true) :
    readArg t = readScalar t := by
  rw [readArg, trim_of_not_blank fun c hc => isBlank_of_isPlain (h c hc)]
  split
  · exact absurd rfl (ne_of_isPlain (h '[' List.mem_cons_self) (by decide))
  · rfl

theorem isPlain_of_isUnsigned {body : List Char} (h : IsUnsigned body) (negative : Bool) :
    ∀ c ∈ signText negative ++ body, isPlain c = true := by
  have hsign : (signText negative).all isPlain = true := by
    cases negative <;> rfl
  refine List.forall_mem_append.mpr ⟨List.all_eq_true.mp hsign, fun c hc => ?_⟩
  rcases h.chars c hc with hd | rfl
  · exact isPlain_of_isDigit hd
  · decide

/-! ### Numbers -/

theorem toList_intText (n : ℤ) :
    (intText n).toList = signText (n < 0) ++ natText n.natAbs := by
  rw [intText, String.toList_append, String.toList_ofList, signText]
  by_cases h : n < 0
  · rw [if_pos h, if_pos (decide_eq_true h)]
    rfl
  · rw [if_neg h, if_neg (by simpa using h)]
    rfl

theorem signed_natAbs (n : ℤ) : signed (n < 0) n.natAbs = n := by
  simp only [signed, decide_eq_true_eq]
  split_ifs <;> omega

/-- An integer of a signed word is read back. -/
theorem readInt?_intText {n : ℤ} (hmin : minInt64 ≤ n) (hmax : n ≤ maxInt64) :
    readInt? (intText n).toList = some n := by
  have := @readInt?_natText (n < 0) n.natAbs
  rw [signed_natAbs] at this
  rw [toList_intText, this hmin hmax]

/-- A written number is no word, and starts like a number. -/
theorem startsNumber_of_isUnsigned {body : List Char} (h : IsUnsigned body) (negative : Bool) :
    isWord "true" (signText negative ++ body) = false ∧
      isWord "false" (signText negative ++ body) = false ∧
      (signText negative ++ body).head?.any startsNumber = true := by
  obtain ⟨c, rest, hbody, hc⟩ := h.head
  obtain ⟨d, tail, htext, hd, hstart⟩ : ∃ d tail, signText negative ++ body = d :: tail ∧
      d.isAlpha = false ∧ startsNumber d = true := by
    cases negative with
    | false => exact ⟨c, rest, hbody, isAlpha_of_isDigit hc, by simp [startsNumber, hc]⟩
    | true => exact ⟨'-', body, rfl, by decide, by decide⟩
  rw [htext]
  exact ⟨isWord_of_not_isAlpha (by decide) hd tail, isWord_of_not_isAlpha (by decide) hd tail,
    hstart⟩

/-- A written number that is an integer is read as one. -/
theorem readScalar_of_readInt? {body : List Char} (h : IsUnsigned body) {negative : Bool} {n : ℤ}
    (hn : readInt? (signText negative ++ body) = some n) :
    readScalar (signText negative ++ body) = .ok (.int n) := by
  obtain ⟨htrue, hfalse, -⟩ := startsNumber_of_isUnsigned h negative
  simp only [readScalar, htrue, hfalse, hn, Bool.false_eq_true, if_false]

/-- A written number that is no integer is read as a double. -/
theorem readScalar_of_readDouble? {body : List Char} (h : IsUnsigned body) {negative : Bool}
    {x : Float} (hn : readInt? (signText negative ++ body) = none)
    (hx : readDouble? (signText negative ++ body) = some x) :
    readScalar (signText negative ++ body) = .ok (.float x) := by
  obtain ⟨htrue, hfalse, hstart⟩ := startsNumber_of_isUnsigned h negative
  simp only [readScalar, htrue, hfalse, hn, hx, hstart, Bool.false_eq_true, if_false, if_true]

theorem readArg_intText {n : ℤ} (hmin : minInt64 ≤ n) (hmax : n ≤ maxInt64) :
    readArg (intText n).toList = .ok (.int n) := by
  have hread := readInt?_intText hmin hmax
  have hu := isUnsigned_natText n.natAbs
  rw [toList_intText] at hread ⊢
  rw [readArg_of_isPlain (isPlain_of_isUnsigned hu _), readScalar_of_readInt? hu hread]

theorem nearestDouble_zero_beq (negative : Bool) : (nearestDouble negative 0 0 == 0) = true := by
  cases negative <;> rfl

/-- An integer that a double is nearest to is converted to that double. -/
theorem doubleOfInt_signed {negative : Bool} {n : ℕ} (hn : n ≠ 0) :
    doubleOfInt (signed negative n) = nearestDouble negative n 0 := by
  cases negative with
  | false =>
    have : ¬ (n : ℤ) < 0 := by omega
    simp [doubleOfInt, signed, this]
  | true => simp [doubleOfInt, signed, Nat.pos_of_ne_zero hn]

/-- A finite double is read back, as an integer or as a double, without the sign of a zero. -/
theorem readArg_doubleText {x : Float} (hf : x.isFinite = true) :
    ∃ a, readArg (doubleText x).toList = .ok a ∧ a.number = .ok (unsignZero x) := by
  have hfinite : Arg.number.finite x = .ok x := if_pos hf
  obtain ⟨body, htext, hbody, n, e, hread, hnear⟩ := doubleText_spec hf
  have hzero (h0 : (x == 0) = true) : body = natText 0 :=
    List.append_cancel_left (htext.symm.trans (doubleText_zero hf h0))
  have hdouble := readDouble?_doubleText hf
  rw [htext] at hdouble ⊢
  rw [readArg_of_isPlain (isPlain_of_isUnsigned hbody _)]
  cases hk : readInt? (signText (negativeDouble x) ++ body) with
  | none =>
    -- A zero would have been read as an integer.
    have h0 : (x == 0) = false := by
      refine Bool.eq_false_iff.mpr fun h0 => ?_
      rw [hzero h0, readInt?_natText (by cases negativeDouble x <;> decide)
        (by cases negativeDouble x <;> decide)] at hk
      exact Option.some_ne_none _ hk
    refine ⟨.float x, readScalar_of_readDouble? hbody hk hdouble, ?_⟩
    rw [unsignZero, h0]
    exact hfinite
  | some k =>
    obtain ⟨hd, rfl⟩ := readInt?_signText hbody hk
    have hne : body ≠ [] := by
      obtain ⟨c, rest, rfl, -⟩ := hbody.head
      exact List.cons_ne_nil c rest
    rw [readNumeral?_digits hne hd] at hread
    cases hread
    refine ⟨_, readScalar_of_readInt? hbody hk, ?_⟩
    change Arg.number.finite (doubleOfInt _) = _
    rcases Nat.eq_zero_or_pos (digitsValue body) with h0 | hpos
    · rw [h0] at hnear ⊢
      have hx : (x == 0) = true := hnear ▸ nearestDouble_zero_beq _
      rw [unsignZero, if_pos hx]
      cases negativeDouble x <;> rfl
    · have h0 : (x == 0) = false := by
        refine Bool.eq_false_iff.mpr fun h0 => ?_
        rw [hzero h0, digitsValue_natText] at hpos
        exact Nat.lt_irrefl 0 hpos
      rw [doubleOfInt_signed hpos.ne', hnear, unsignZero, h0]
      exact hfinite

/-! ### Lists -/

/-- Texts with commas between them. -/
def commaJoin (ts : List (List Char)) : List Char :=
  [','].intercalate ts

theorem mem_commaJoin {ts : List (List Char)} {c : Char} (h : c ∈ commaJoin ts) :
    c = ',' ∨ ∃ t ∈ ts, c ∈ t := by
  induction ts with
  | nil => simp [commaJoin] at h
  | cons t ts ih =>
    cases ts with
    | nil => exact .inr ⟨t, List.mem_cons_self, by simpa [commaJoin] using h⟩
    | cons u ts =>
      rw [commaJoin, List.intercalate_cons_cons, List.mem_append, List.mem_append,
        List.mem_singleton] at h
      rcases h with (h | h) | h
      · exact .inr ⟨t, List.mem_cons_self, h⟩
      · exact .inl h
      · exact (ih h).imp_right fun ⟨v, hv, hc⟩ => ⟨v, List.mem_cons_of_mem t hv, hc⟩

theorem toList_listText (items : List ℤ) :
    (Arg.list items).text.toList =
      '[' :: (commaJoin (items.map fun n => (intText n).toList) ++ [']']) := by
  rw [Arg.text, String.toList_append, String.toList_append, String.toList_intercalate,
    List.map_map]
  rfl

theorem isPlain_intText (n : ℤ) : ∀ c ∈ (intText n).toList, isPlain c = true := by
  rw [toList_intText]
  exact isPlain_of_isUnsigned (isUnsigned_natText _) _

theorem intText_ne_nil (n : ℤ) : (intText n).toList ≠ [] := by
  rw [toList_intText]
  exact List.append_ne_nil_of_right_ne_nil _ (natText_ne_nil _)

/-- The inside of a list consists of plain characters and commas. -/
theorem mem_listInside {items : List ℤ} {c : Char}
    (h : c ∈ commaJoin (items.map fun n => (intText n).toList)) : c = ',' ∨ isPlain c = true := by
  refine (mem_commaJoin h).imp_right ?_
  rintro ⟨t, ht, hc⟩
  obtain ⟨n, -, rfl⟩ := List.mem_map.mp ht
  exact isPlain_intText n c hc

theorem isBlank_listInside {items : List ℤ} {c : Char}
    (h : c ∈ commaJoin (items.map fun n => (intText n).toList)) : isBlank c = false := by
  rcases mem_listInside h with rfl | hc
  · decide
  · exact isBlank_of_isPlain hc

theorem readItems_inside {items : List ℤ} (h : ∀ n ∈ items, minInt64 ≤ n ∧ n ≤ maxInt64) :
    readItems (commaJoin (items.map fun n => (intText n).toList)) = .ok items := by
  have hread : ∀ n ∈ items, readItem (intText n).toList = .ok n := fun n hn => by
    rw [readItem, trim_of_not_blank fun c hc => isBlank_of_isPlain (isPlain_intText n c hc),
      readInt?_intText (h n hn).1 (h n hn).2]
  rw [readItems, trim_of_not_blank fun c => isBlank_listInside]
  cases items with
  | nil => rfl
  | cons m items =>
    have hsplit : splitCommas (commaJoin ((m :: items).map fun n => (intText n).toList)) =
        (m :: items).map fun n => (intText n).toList := by
      refine List.splitOn_intercalate ',' (fun t ht hc => ?_) (List.cons_ne_nil _ _)
      obtain ⟨n, -, rfl⟩ := List.mem_map.mp ht
      exact absurd rfl (ne_of_isPlain (isPlain_intText n ',' hc) (by decide))
    have hne : commaJoin ((m :: items).map fun n => (intText n).toList) ≠ [] := by
      intro h0
      rw [h0] at hsplit
      exact intText_ne_nil m (List.cons.inj hsplit).1.symm
    rw [if_neg hne, hsplit, List.mapM_map]
    exact (mapM_eq_ok (g := id) hread).trans (congrArg Except.ok (List.map_id _))

/-- A list of integers of signed words is read back. -/
theorem readArg_listText {items : List ℤ} (h : ∀ n ∈ items, minInt64 ≤ n ∧ n ≤ maxInt64) :
    readArg (Arg.list items).text.toList = .ok (.list items) := by
  have hblank : ∀ c ∈ (Arg.list items).text.toList, isBlank c = false := by
    rw [toList_listText]
    simp only [List.mem_cons, List.mem_append, List.not_mem_nil, or_false]
    rintro c (rfl | hc | rfl)
    · decide
    · exact isBlank_listInside hc
    · decide
  rw [readArg, trim_of_not_blank hblank, toList_listText]
  simp [readItems_inside h, Except.map]

/-! ### Values -/

/-- The kind of a value. -/
def Value.kind {α : Type} : Value α → ValueKind
  | count _ => .count
  | seed _ => .seed
  | number _ => .number
  | columns _ => .columns
  | side _ => .side

theorem count_le_maxInt64 (n : UInt32) : minInt64 ≤ (n.toNat : ℤ) ∧ (n.toNat : ℤ) ≤ maxInt64 := by
  have := n.toNat_lt
  simp only [minInt64, maxInt64]
  omega

theorem count?_toNat (n : UInt32) : count? (n.toNat : ℤ) = some n := by
  have := n.toNat_lt
  rw [count?, if_pos ⟨Int.natCast_nonneg _, by exact_mod_cast this⟩, Int.toNat_natCast,
    UInt32.ofNat_toNat]

theorem bmod_of_le_maxInt64 {k : ℤ} {m : ℕ} (hm : m = 2 ^ 64) (hmin : 0 ≤ k)
    (hmax : k ≤ maxInt64) : Int.bmod k m = k := by
  simp only [maxInt64] at hmax
  exact Int.bmod_eq_of_le (by omega) (by omega)

/-- A seed of a signed word is written as it is. -/
theorem signedWord_of_le {n : UInt64} (h : (n.toNat : ℤ) ≤ maxInt64) : signedWord n = n.toNat :=
  bmod_of_le_maxInt64 rfl (Int.natCast_nonneg _) h

theorem seedOf?_toNat {n : UInt64} (h : (n.toNat : ℤ) ≤ maxInt64) :
    seedOf? (n.toNat : ℤ) = some n := by
  rw [seedOf?, if_pos ⟨Int.natCast_nonneg _, h⟩, Int.toNat_natCast, UInt64.ofNat_toNat]

theorem readArg_count (n : UInt32) :
    readArg (Value.count n).arg.text.toList = .ok (.int n.toNat) := by
  rw [Value.arg, Arg.text]
  exact readArg_intText (count_le_maxInt64 n).1 (count_le_maxInt64 n).2

theorem readArg_seed {n : UInt64} (h : (n.toNat : ℤ) ≤ maxInt64) :
    readArg (Value.seed n).arg.text.toList = .ok (.int n.toNat) := by
  have hmin : minInt64 ≤ (n.toNat : ℤ) := by
    simp only [minInt64]
    omega
  rw [Value.arg, Arg.text, signedWord_of_le h]
  exact readArg_intText hmin h

theorem mapM_count? (cols : List UInt32) :
    (cols.map fun c => (c.toNat : ℤ)).mapM count? = some cols := by
  induction cols with
  | nil => rfl
  | cons c cols ih =>
    rw [List.map_cons, List.mapM_cons, count?_toNat, ih]
    rfl

/-- A value that can be written is read back and converted to what it was, without the sign of a
zero. -/
theorem Value.exists_readArg {v : Value Float} (h : v.IsWritable) :
    ∃ a, readArg v.arg.text.toList = .ok a ∧ a.convert v.kind = .ok v.unsignZero := by
  cases v with
  | count n =>
    refine ⟨.int n.toNat, readArg_count n, ?_⟩
    rw [kind, Arg.convert, Arg.integer?, Option.bind_some, count?_toNat]
    rfl
  | seed n =>
    refine ⟨.int n.toNat, readArg_seed h, ?_⟩
    rw [kind, Arg.convert, Arg.integer?, Option.bind_some, seedOf?_toNat h]
    rfl
  | number x =>
    obtain ⟨a, hread, hnumber⟩ := readArg_doubleText h
    refine ⟨a, hread, ?_⟩
    simp only [Arg.convert, kind, hnumber]
    rfl
  | columns cols =>
    have hrange : ∀ n ∈ cols.map fun c => (c.toNat : ℤ), minInt64 ≤ n ∧ n ≤ maxInt64 := by
      intro n hn
      obtain ⟨c, -, rfl⟩ := List.mem_map.mp hn
      exact count_le_maxInt64 c
    refine ⟨_, readArg_listText hrange, ?_⟩
    simp only [Arg.convert, kind, Arg.columns, Arg.columns.inRange, mapM_count?]
    rfl
  | side s =>
    cases s with
    | left => exact ⟨.str "left", rfl, rfl⟩
    | right => exact ⟨.str "right", rfl, rfl⟩

/-- The argument that a written value is read as. -/
def Value.reread (v : Value Float) : Arg :=
  (readArg v.arg.text.toList).toOption.getD v.arg

theorem Value.readArg_text {v : Value Float} (h : v.IsWritable) :
    readArg v.arg.text.toList = .ok v.reread := by
  obtain ⟨a, hread, -⟩ := exists_readArg h
  rw [reread, hread]
  rfl

theorem Value.convert_reread {v : Value Float} (h : v.IsWritable) :
    v.reread.convert v.kind = .ok v.unsignZero := by
  obtain ⟨a, hread, hconvert⟩ := exists_readArg h
  rw [reread, hread]
  exact hconvert

end Raceway
