import Mathlib
import Raceway.Checksum
import Raceway.Snapshot.Bytes
/-!
# The checksum as it is documented

The checksum goes through its bytes by their places, with machine words. Here it is written as it is
documented: over bit vectors, with the multipliers in full, and by taking four bytes off the front
of a list to make a word, and four words to make a stripe. Both are the same.

## Main definitions

* `Raceway.Checksum.fours`: the elements of a list in groups of four.
* `Raceway.Checksum.documented`: the checksum of a list of bytes as it is documented.

## Main results

* `Raceway.Checksum.fours_eq_map_range`: the groups of four by their places.
* `Raceway.Checksum.toBitVec_xxh32`: the checksum is the documented one.
-/

namespace Raceway

/-! ### Words of four bytes -/

namespace Bytes

theorem or_shiftLeft {m n i : ℕ} (h : m < 2 ^ i) : m ||| n <<< i = m + 2 ^ i * n := by
  rw [Nat.or_comm, ← Nat.shiftLeft_add_eq_or_of_lt h, Nat.shiftLeft_eq, Nat.mul_comm, Nat.add_comm]

/-- The word of four bytes is their sum, each with its weight. -/
theorem toNat_toWord (b₀ b₁ b₂ b₃ : UInt8) :
    (toWord b₀ b₁ b₂ b₃).toNat =
      b₀.toNat + 2 ^ 8 * b₁.toNat + 2 ^ 16 * b₂.toNat + 2 ^ 24 * b₃.toNat := by
  have h₀ := b₀.toNat_lt
  have h₁ := b₁.toNat_lt
  have h₂ := b₂.toNat_lt
  have h₃ := b₃.toNat_lt
  have hfits {b : UInt8} {i : ℕ} (h : b.toNat * 2 ^ i < 2 ^ 32) :
      b.toNat <<< i % 2 ^ 32 = b.toNat <<< i := by
    rw [Nat.shiftLeft_eq, Nat.mod_eq_of_lt h]
  simp only [toWord, UInt32.toNat_or, UInt8.toNat_toUInt32, UInt32.toNat_shiftLeft,
    UInt32.reduceToNat, Nat.reduceMod]
  -- The bytes are joined from the low one on, so that each meets a number below its weight.
  rw [hfits (by omega), hfits (by omega), hfits (by omega), or_shiftLeft (i := 8) (by omega),
    or_shiftLeft (i := 16) (by omega), or_shiftLeft (i := 24) (by omega)]

end Bytes

namespace Checksum

variable {α β : Type}

/-! ### The documented checksum -/

/-- The elements of a list in groups of four, as far as there are full groups. -/
def fours : List α → List (α × α × α × α)
  | a :: b :: c :: d :: rest => (a, b, c, d) :: fours rest
  | _ => []

/-- The elements behind the last full group of four. -/
def remainder (l : List α) : List α :=
  l.drop (l.length / 4 * 4)

/-- The word of four bytes, the low byte first. -/
def joined : UInt8 × UInt8 × UInt8 × UInt8 → BitVec 32
  | (a, b, c, d) =>
    BitVec.ofNat 32 (a.toNat + 2 ^ 8 * b.toNat + 2 ^ 16 * c.toNat + 2 ^ 24 * d.toNat)

/-- The words of four bytes, as far as there are full ones. -/
def words (bytes : List UInt8) : List (BitVec 32) :=
  (fours bytes).map joined

/-- Take a word into an accumulator. -/
def accumulate (v w : BitVec 32) : BitVec 32 :=
  (v + w * 0x85EBCA77#32).rotateLeft 13 * 0x9E3779B1#32

/-- Four accumulators. -/
abbrev Accumulators := BitVec 32 × BitVec 32 × BitVec 32 × BitVec 32

/-- Take a stripe of four words into the accumulators. -/
def absorb : Accumulators → BitVec 32 × BitVec 32 × BitVec 32 × BitVec 32 → Accumulators
  | (v₁, v₂, v₃, v₄), (w₁, w₂, w₃, w₄) =>
    (accumulate v₁ w₁, accumulate v₂ w₂, accumulate v₃ w₃, accumulate v₄ w₄)

/-- The accumulators before the first stripe. -/
def initial (seed : BitVec 32) : Accumulators :=
  (seed + 0x9E3779B1#32 + 0x85EBCA77#32, seed + 0x85EBCA77#32, seed, seed - 0x9E3779B1#32)

/-- The accumulators brought together. -/
def converge : Accumulators → BitVec 32
  | (v₁, v₂, v₃, v₄) => v₁.rotateLeft 1 + v₂.rotateLeft 7 + v₃.rotateLeft 12 + v₄.rotateLeft 18

/-- Take a word behind the last stripe into the checksum. -/
def takeWord (h w : BitVec 32) : BitVec 32 :=
  (h + w * 0xC2B2AE3D#32).rotateLeft 17 * 0x27D4EB2F#32

/-- Take a byte behind the last word into the checksum. -/
def takeByte (h : BitVec 32) (b : UInt8) : BitVec 32 :=
  (h + b.toBitVec.setWidth 32 * 0x165667B1#32).rotateLeft 11 * 0x9E3779B1#32

/-- The final mixing. -/
def avalanche (h : BitVec 32) : BitVec 32 :=
  let h := (h ^^^ h >>> 15) * 0x85EBCA77#32
  let h := (h ^^^ h >>> 13) * 0xC2B2AE3D#32
  h ^^^ h >>> 16

/-- The checksum of a list of bytes under a seed, as it is documented. -/
def documented (seed : BitVec 32) (bytes : List UInt8) : BitVec 32 :=
  let start :=
    if bytes.length < 16 then seed + 0x165667B1#32
    else converge ((fours (words bytes)).foldl absorb (initial seed))
  avalanche ((remainder bytes).foldl takeByte
    ((remainder (words bytes)).foldl takeWord (start + BitVec.ofNat 32 bytes.length)))

/-! ### Lists by places -/

/-- The groups of four by their places. -/
theorem fours_eq_map_range (l : List α) (a : α) :
    fours l = (List.range (l.length / 4)).map fun k =>
      (l.getD (4 * k) a, l.getD (4 * k + 1) a, l.getD (4 * k + 2) a, l.getD (4 * k + 3) a) := by
  induction l using fours.induct with
  | case1 b c d e rest ih =>
    have hlength : (b :: c :: d :: e :: rest).length / 4 = rest.length / 4 + 1 := by
      simp only [List.length_cons]
      omega
    rw [fours, hlength, List.range_succ_eq_map, List.map_cons, List.map_map, ih]
    exact congrArg _ (List.map_congr_left fun k _ => by simp [Nat.mul_succ])
  | case2 l h =>
    match l, h with
    | [], _ | [_], _ | [_, _], _ | [_, _, _], _ => simp [fours]
    | b :: c :: d :: e :: rest, h => exact absurd rfl (h b c d e rest)

theorem drop_eq_map_range (l : List α) (m : ℕ) (a : α) :
    l.drop m = (List.range (l.length - m)).map fun k => l.getD (m + k) a := by
  refine List.ext_getElem (by simp) fun k hk _ => ?_
  rw [List.length_drop] at hk
  simp [List.getElem?_eq_getElem (show m + k < l.length by omega)]

/-- Going through the numbers below one is going through their list. What is kept of the state may
be computed along the way. -/
theorem map_fold (n : ℕ) {f : ℕ → α → α} {g : β → ℕ → β} {φ : α → β}
    (h : ∀ k < n, ∀ a, φ (f k a) = g (φ a) k) (a : α) :
    φ (n.fold (fun k _ a => f k a) a) = (List.range n).foldl g (φ a) := by
  induction n with
  | zero => rfl
  | succ n ih =>
    rw [Nat.fold_succ, List.range_succ, List.foldl_concat, h n n.lt_succ_self,
      ih fun k hk => h k (hk.trans n.lt_succ_self)]

/-! ### Steps over bit vectors -/

/-- The accumulators as bit vectors. -/
def Lanes.toBitVec (v : Lanes) : Accumulators :=
  (v.v1.toBitVec, v.v2.toBitVec, v.v3.toBitVec, v.v4.toBitVec)

theorem byteAt_eq (bytes : ByteArray) (i : ℕ) :
    byteAt bytes i = (bytes.data.toList.getD i 0).toUInt32 := by
  rw [byteAt]
  split_ifs with h
  · rw [List.getD_eq_getElem _ _ (by simpa using h), Array.getElem_toList,
      ByteArray.getElem_eq_getElem_data]
  · rw [List.getD_eq_default _ _ (by simpa using h)]
    rfl

theorem toBitVec_toWord (a b c d : UInt8) :
    (Bytes.toWord a b c d).toBitVec = joined (a, b, c, d) := by
  rw [joined, ← Bytes.toNat_toWord, ← UInt32.toNat_toBitVec, BitVec.ofNat_toNat, BitVec.setWidth_eq]

theorem length_words (l : List UInt8) : (words l).length = l.length / 4 := by
  rw [words, fours_eq_map_range l 0, List.length_map, List.length_map, List.length_range]

/-- The word at a place is the one of that number. -/
theorem toBitVec_wordAt (bytes : ByteArray) {k : ℕ} (hk : k < bytes.size / 4) :
    (wordAt bytes (4 * k)).toBitVec = (words bytes.data.toList).getD k 0 := by
  have hlength : k < (words bytes.data.toList).length := by
    rw [length_words]
    exact hk
  rw [List.getD_eq_getElem _ _ hlength]
  simp only [words, fours_eq_map_range _ (0 : UInt8), List.getElem_map, List.getElem_range, wordAt,
    byteAt_eq]
  exact toBitVec_toWord ..

/-- A stripe takes its four words into the accumulators. -/
theorem Lanes.toBitVec_stripe (bytes : ByteArray) {k : ℕ} (hk : k < bytes.size / 16) (v : Lanes) :
    (stripe bytes (16 * k) v).toBitVec = absorb v.toBitVec
      ((words bytes.data.toList).getD (4 * k) 0, (words bytes.data.toList).getD (4 * k + 1) 0,
        (words bytes.data.toList).getD (4 * k + 2) 0,
        (words bytes.data.toList).getD (4 * k + 3) 0) := by
  have hword (i : ℕ) (hi : i < 4) := toBitVec_wordAt bytes (k := 4 * k + i) (by omega)
  have h₀ := hword 0 (by decide)
  have h₁ := hword 1 (by decide)
  have h₂ := hword 2 (by decide)
  have h₃ := hword 3 (by decide)
  rw [show 4 * (4 * k + 0) = 16 * k by ring] at h₀
  rw [show 4 * (4 * k + 1) = 16 * k + 4 by ring] at h₁
  rw [show 4 * (4 * k + 2) = 16 * k + 8 by ring] at h₂
  rw [show 4 * (4 * k + 3) = 16 * k + 12 by ring] at h₃
  rw [← h₁, ← h₂, ← h₃, ← Nat.add_zero (4 * k), ← h₀]
  rfl

/-- The stripes give what they give as groups of four words. -/
theorem toBitVec_stripes (seed : UInt32) (bytes : ByteArray) :
    (stripes seed bytes).toBitVec =
      if bytes.size < 16 then seed.toBitVec + 0x165667B1#32
      else converge ((fours (words bytes.data.toList)).foldl absorb (initial seed.toBitVec)) := by
  have hcount : (words bytes.data.toList).length / 4 = bytes.size / 16 := by
    rw [length_words, Nat.div_div_eq_div_mul]
    rfl
  rw [stripes]
  split_ifs
  · rfl
  · have hmerge (v : Lanes) : v.merge.toBitVec = converge v.toBitVec := rfl
    have hstart : (Lanes.start seed).toBitVec = initial seed.toBitVec := rfl
    rw [fours_eq_map_range (words _) 0, List.foldl_map, hcount, hmerge, ← hstart]
    exact congrArg converge (map_fold _ (f := fun k => Lanes.stripe bytes (16 * k))
      (fun k hk v => Lanes.toBitVec_stripe bytes hk v) (Lanes.start seed))

/-- The words behind the stripes are those that fill no group of four. -/
theorem toBitVec_mixWords (bytes : ByteArray) (h : UInt32) :
    (((bytes.size - bytes.size / 16 * 16) / 4).fold
      (fun k _ h => mixWord bytes (bytes.size / 16 * 16 + 4 * k) h) h).toBitVec =
        (remainder (words bytes.data.toList)).foldl takeWord h.toBitVec := by
  have hcount : bytes.size / 4 - bytes.size / 4 / 4 * 4 =
      (bytes.size - bytes.size / 16 * 16) / 4 := by omega
  have hlength : (words bytes.data.toList).length = bytes.size / 4 := length_words _
  have hword (k : ℕ) (hk : k < (bytes.size - bytes.size / 16 * 16) / 4) (h : UInt32) :
      (mixWord bytes (bytes.size / 16 * 16 + 4 * k) h).toBitVec =
        takeWord h.toBitVec ((words bytes.data.toList).getD (bytes.size / 4 / 4 * 4 + k) 0) := by
    have hplace : bytes.size / 16 * 16 + 4 * k = 4 * (bytes.size / 4 / 4 * 4 + k) := by omega
    rw [hplace, ← toBitVec_wordAt bytes (by omega)]
    rfl
  rw [remainder, drop_eq_map_range _ _ 0, List.foldl_map, hlength, hcount]
  exact map_fold _ (f := fun k => mixWord bytes (bytes.size / 16 * 16 + 4 * k)) hword h

/-- The bytes behind the words are those that fill no group of four. -/
theorem toBitVec_mixBytes (bytes : ByteArray) (h : UInt32) :
    ((bytes.size % 4).fold (fun k _ h => mixByte bytes
      (bytes.size / 16 * 16 + 4 * ((bytes.size - bytes.size / 16 * 16) / 4) + k) h) h).toBitVec =
        (remainder bytes.data.toList).foldl takeByte h.toBitVec := by
  have hcount : bytes.size - bytes.size / 4 * 4 = bytes.size % 4 := by omega
  have hlength : bytes.data.toList.length = bytes.size := rfl
  have hplace : bytes.size / 16 * 16 + 4 * ((bytes.size - bytes.size / 16 * 16) / 4) =
      bytes.size / 4 * 4 := by omega
  have hbyte (k : ℕ) (_ : k < bytes.size % 4) (h : UInt32) :
      (mixByte bytes (bytes.size / 4 * 4 + k) h).toBitVec =
        takeByte h.toBitVec (bytes.data.toList.getD (bytes.size / 4 * 4 + k) 0) := by
    rw [mixByte, byteAt_eq]
    rfl
  rw [remainder, drop_eq_map_range _ _ 0, List.foldl_map, hlength, hcount, hplace]
  exact map_fold _ (f := fun k => mixByte bytes (bytes.size / 4 * 4 + k)) hbyte h

/-- The checksum is the documented one. -/
theorem toBitVec_xxh32 (seed : UInt32) (bytes : ByteArray) :
    (xxh32 seed bytes).toBitVec = documented seed.toBitVec bytes.data.toList := by
  have hfinish (h : UInt32) : (finish h).toBitVec = avalanche h.toBitVec := rfl
  have hsize : (UInt32.ofNat bytes.size).toBitVec = BitVec.ofNat 32 bytes.data.toList.length := rfl
  rw [xxh32, hfinish, toBitVec_mixBytes, toBitVec_mixWords, UInt32.toBitVec_add, toBitVec_stripes,
    hsize]
  rfl

/-- Known checksums: of no bytes, of one and of three, and of two stripes with a word and three
bytes behind them. -/
example : xxh32 0 "".toUTF8 = 0x02CC5D05 ∧ xxh32 0 "a".toUTF8 = 0x550D7456 ∧
    xxh32 0 "abc".toUTF8 = 0x32D153FF ∧
    xxh32 0 "Nobody inspects the spammish repetition".toUTF8 = 0xE2293B2F := by decide +kernel

end Checksum

end Raceway
