/-!
# Binary floating point as a mantissa and an exponent

A finite number of binary format is `mant * 2 ^ exp`. This module decodes the bits of a double or
a single into that form, and packs the double nearest to a quotient of natural numbers. All
arithmetic is exact, on natural numbers and integers, so it can be reasoned about without any
fact on machine operations.

## Main definitions

* `Raceway.Decimal.Binary`: a finite magnitude, with a mark for the narrow gap below a power of two.
* `Raceway.Decimal.Binary.ofDouble`, `Raceway.Decimal.Binary.ofSingle`: decoding.
* `Raceway.Decimal.nearestBits`: the bits of the double nearest to a quotient, ties to even.
* `Raceway.Decimal.integer?`: the integer that a double stands for, if it is one.
-/

namespace Raceway.Decimal

-- Powers of natural numbers mean the same here whatever else is imported.
attribute [local instance(2000)] instPowNat

/-- A finite magnitude of binary format. -/
structure Binary where
  /-- The mantissa. -/
  mant : Nat
  /-- The exponent of two. -/
  exp : Int
  /-- The gap to the next smaller magnitude is half the gap to the next larger one. -/
  narrow : Bool
deriving DecidableEq

namespace Binary

/-- Decode bits, for a format with `width` fraction bits and `range` exponent bits whose least
exponent of two is `least`. The sign bit, and all above it, is left out. -/
def ofBits (width range : Nat) (least : Int) (bits : Nat) : Binary :=
  let biased := bits / 2 ^ width % 2 ^ range
  let fraction := bits % 2 ^ width
  if biased = 0 then ⟨fraction, least, false⟩
  else ⟨2 ^ width + fraction, least + (biased - 1 : Nat), fraction == 0 && biased > 1⟩

/-- The magnitude with the given bits of a double. -/
def ofDoubleBits (bits : Nat) : Binary :=
  ofBits 52 11 (-1074) bits

/-- The magnitude of a finite double. -/
def ofDouble (x : Float) : Binary :=
  ofDoubleBits x.toBits.toNat

/-- The magnitude of a finite single. -/
def ofSingle (x : Float32) : Binary :=
  ofBits 23 8 (-149) x.toBits.toNat

end Binary

/-- The sign bit of a double is set. -/
def negativeDouble (x : Float) : Bool :=
  x.toBits.toNat ≥ 0x8000000000000000

/-- The sign bit of a single is set. -/
def negativeSingle (x : Float32) : Bool :=
  x.toBits.toNat ≥ 0x80000000

/-! ### Rounding a quotient to a double -/

/-- The quotient rounded to the nearest integer, a tie to the even one. -/
def roundDiv (num den : Nat) : Nat :=
  let q := num / den
  let r := num % den
  if 2 * r < den then q
  else if den < 2 * r then q + 1
  else q + q % 2

/-- Whether `a * 2 ^ i` is at most `b`, exactly. -/
def scaledLe (a : Nat) (i : Int) (b : Nat) : Bool :=
  a * 2 ^ i.toNat ≤ b * 2 ^ (-i).toNat

/-- The exponent of two of a quotient: the greatest `e` with `2 ^ e ≤ num / den`. -/
def binaryExponent (num den : Nat) : Int :=
  let e := (num.log2 : Int) - den.log2
  if scaledLe den e num then e else e - 1

/-- The bits of the double nearest to `num / den`, a tie to the even mantissa, and those of infinity
where the quotient is too large. The bits of neighbouring doubles are neighbouring numbers, so a
mantissa that rounds up to the next power of two needs no special care. -/
def nearestBits (num den : Nat) : Nat :=
  if num = 0 then 0
  else
    let e := max (binaryExponent num den - 52) (-1074)
    let mant := roundDiv (num * 2 ^ (-e).toNat) (den * 2 ^ e.toNat)
    min ((e + 1074).toNat * 0x10000000000000 + mant) 0x7FF0000000000000

/-- The double with the given sign nearest to `digits * 10 ^ exp`. An exponent far outside the range
of doubles is decided without computing the power of ten. -/
def nearestDouble (negative : Bool) (digits : Nat) (exp : Int) : Float :=
  let magnitude :=
    if digits = 0 then 0
    else if exp > 400 then 0x7FF0000000000000
    else if exp + (digits.log2 : Int) < -1100 then 0
    else nearestBits (digits * 10 ^ exp.toNat) (10 ^ (-exp).toNat)
  Float.ofBits (UInt64.ofNat (magnitude + if negative then 0x8000000000000000 else 0))

/-! ### Integral doubles -/

/-- The magnitude as a natural number, if it is one. -/
def Binary.nat? (b : Binary) : Option Nat :=
  if 0 ≤ b.exp then some (b.mant * 2 ^ b.exp.toNat)
  else if b.mant % 2 ^ (-b.exp).toNat = 0 then some (b.mant / 2 ^ (-b.exp).toNat)
  else none

/-- The integer that a double stands for, if it is finite and integral. -/
def integer? (x : Float) : Option Int :=
  if x.isFinite then
    (Binary.ofDouble x).nat?.map fun n => if negativeDouble x then -(n : Int) else n
  else none

end Raceway.Decimal
