import Raceway.Decimal.Binary
/-!
# The fewest digits that identify a binary number

A decimal identifies a magnitude of binary format when it lies among the numbers that round to it:
from halfway to the neighbour below to halfway to the neighbour above, the ends included exactly
when the mantissa is even. The selection tries the grids of one, two, three and more significant
digits in turn; the first grid on which a neighbour of the magnitude identifies it wins, and of two
neighbours that do the closer one. A magnitude halfway between the two is a tie, which each format
of numbers settles for itself.

## Main definitions

* `Raceway.Decimal.Numeral`: digits and an exponent of ten.
* `Raceway.Decimal.Tie`: where a magnitude halfway between two decimals goes.
* `Raceway.Decimal.Binary.identifiedBy`: the decimal rounds to this magnitude.
* `Raceway.Decimal.Binary.shortest`: the selected decimal.
* `Raceway.Decimal.plainText`: a decimal in positional notation.

## Main results

* `Raceway.Decimal.Binary.identifiedBy_of_grid`: what a grid offers identifies the magnitude.
-/

namespace Raceway.Decimal

-- Powers of natural numbers mean the same here whatever else is imported.
attribute [local instance(2000)] instPowNat

/-- A decimal number `digits * 10 ^ exp`. -/
structure Numeral where
  /-- The significant digits, read as one natural number. -/
  digits : Nat
  /-- The exponent of ten. -/
  exp : Int
deriving DecidableEq

/-- Where a magnitude halfway between two neighbouring decimals goes. -/
inductive Tie where
  /-- To the greater decimal. -/
  | up
  /-- To the decimal whose last digit is even. -/
  | toEven
deriving DecidableEq

/-- Compare `a * 10 ^ i` with `b * 2 ^ j`, exactly. -/
def compareScaled (a : Nat) (i : Int) (b : Nat) (j : Int) : Ordering :=
  compare (a * 10 ^ i.toNat * 2 ^ (-j).toNat) (b * 2 ^ j.toNat * 10 ^ (-i).toNat)

namespace Binary

/-- The decimal lies among the numbers that round to the magnitude, to nearest and ties to even. -/
def identifiedBy (b : Binary) (d : Numeral) : Bool :=
  let low := if b.narrow then 4 * b.mant - 1 else 4 * b.mant - 2
  let high := 4 * b.mant + 2
  let even := b.mant % 2 == 0
  let below := compareScaled d.digits d.exp low (b.exp - 2)
  let above := compareScaled d.digits d.exp high (b.exp - 2)
  (below == .gt || (even && below == .eq)) && (above == .lt || (even && above == .eq))

/-- The magnitude divided by `10 ^ e`, rounded down. -/
def grid (b : Binary) (e : Int) : Nat :=
  (b.mant * 2 ^ b.exp.toNat * 10 ^ (-e).toNat) / (10 ^ e.toNat * 2 ^ (-b.exp).toNat)

/-- Of the grid point `d * 10 ^ e` and the next one the magnitude takes the first: it is closer to
it, or halfway between the two and the tie goes there. -/
def takesLower (b : Binary) (tie : Tie) (d : Nat) (e : Int) : Bool :=
  match compareScaled (2 * d + 1) e (2 * b.mant) b.exp with
  | .gt => true
  | .eq => tie = .toEven && d % 2 = 0
  | .lt => false

/-- The neighbour of the magnitude among the multiples of `10 ^ e` that identifies it, the closer
one if both do. -/
def onGrid? (b : Binary) (tie : Tie) (e : Int) : Option Numeral :=
  let d := b.grid e
  let lower : Numeral := ⟨d, e⟩
  let upper : Numeral := ⟨d + 1, e⟩
  if b.identifiedBy lower then
    if b.identifiedBy upper && !b.takesLower tie d e then some upper else some lower
  else if b.identifiedBy upper then some upper
  else none

/-- The least `k` with `mant * 2 ^ exp < 10 ^ k`: an estimate from the exponent of two, corrected
upwards. -/
def scale (b : Binary) : Int :=
  let estimate := (((b.mant.log2 : Int) + b.exp) * 30103).fdiv 100000
  if compareScaled 1 estimate b.mant b.exp == .gt then estimate
  else if compareScaled 1 (estimate + 1) b.mant b.exp == .gt then estimate + 1
  else estimate + 2

/-- The magnitude itself as a decimal. -/
def exact (b : Binary) : Numeral :=
  if 0 ≤ b.exp then ⟨b.mant * 2 ^ b.exp.toNat, 0⟩ else ⟨b.mant * 5 ^ (-b.exp).toNat, b.exp⟩

/-- The decimal with the fewest digits that identifies a positive magnitude, the closest one among
those. -/
def shortest (b : Binary) (tie : Tie) : Numeral :=
  ((List.range 18).findSome? fun (n : Nat) => b.onGrid? tie (b.scale - (n : Int))).getD b.exact

/-- What a grid offers identifies the magnitude. -/
theorem identifiedBy_of_grid {b : Binary} {tie : Tie} {e : Int} {d : Numeral}
    (h : b.onGrid? tie e = some d) : b.identifiedBy d = true := by
  simp only [onGrid?] at h
  split at h
  · rename_i hb
    split at h
    · rename_i ha
      simp only [Option.some.injEq] at h
      subst h
      exact (Bool.and_eq_true .. ▸ ha).1
    · simp only [Option.some.injEq] at h
      exact h ▸ hb
  · split at h
    · rename_i ha
      simp only [Option.some.injEq] at h
      exact h ▸ ha
    · simp at h

end Binary

/-! ### Notation -/

/-- The decimal digits of a natural number. -/
def natText (n : Nat) : List Char :=
  Nat.toDigits 10 n

/-- The digits without their trailing zeros, and how many were dropped. -/
def dropZeros (digits : List Char) : List Char × Nat :=
  let kept := (digits.reverse.dropWhile (· == '0')).reverse
  (kept, digits.length - kept.length)

/-- Positional notation of digits with the decimal point behind the first `point` of them. Zeros
fill the places that no digit takes, and no point is written behind a whole number. -/
def positional (digits : List Char) (point : Int) : List Char :=
  if point ≤ 0 then
    ['0', '.'] ++ List.replicate (-point).toNat '0' ++ digits
  else if digits.length ≤ point.toNat then
    digits ++ List.replicate (point.toNat - digits.length) '0'
  else
    digits.take point.toNat ++ ['.'] ++ digits.drop point.toNat

/-- The significant digits of a decimal, and where its decimal point stands behind them. -/
def Numeral.significant (d : Numeral) : List Char × Int :=
  let written := natText d.digits
  ((dropZeros written).1, written.length + d.exp)

/-- A positive magnitude in positional notation, with the fewest digits that identify it. Ties go
up. -/
def plainText (b : Binary) : List Char :=
  let (digits, point) := (b.shortest .up).significant
  positional digits point

/-- Doubles are written positionally with the fewest digits that identify them, without a point
behind whole numbers; zero keeps its sign. -/
def doubleText (x : Float) : String :=
  if x.isNaN then "NaN"
  else
    let sign := if negativeDouble x then "-" else ""
    if x.isInf then sign ++ "inf"
    else if x == 0 then sign ++ "0"
    else sign ++ String.ofList (plainText (Binary.ofDouble x))

end Raceway.Decimal
