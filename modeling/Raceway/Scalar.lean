/-!
# Numbers that measure a track

The spacing of gaps and the width of a fork are computed with the operations below and no others.
They are written over any type that has them, so that the same formulas can be read over
floating-point numbers, which the program uses, and over exact ones.

## Main definitions

* `Raceway.Scalar`: arithmetic, order, rounding, and passage from and to counts.
* `Raceway.Scalar.clamp`: a number brought between two bounds.
-/

namespace Raceway

/-- Numbers with the operations that the formulas on gaps need. -/
class Scalar (α : Type) extends Add α, Sub α, Mul α, Div α where
  /-- The number of a count. -/
  ofCount : UInt32 → α
  /-- The first number is below the second one. -/
  below : α → α → Bool
  /-- The nearest integer, a half going away from zero. -/
  round : α → α
  /-- The count that an integral number stands for; numbers out of range go to its ends. -/
  toCount : α → UInt32

namespace Scalar

variable {α : Type} [Scalar α]

/-- The number brought between two bounds. -/
def clamp (low high x : α) : α :=
  if below x low then low else if below high x then high else x

end Scalar

instance : Scalar Float where
  ofCount := UInt32.toFloat
  below x y := x < y
  round := Float.round
  toCount := Float.toUInt32

end Raceway
