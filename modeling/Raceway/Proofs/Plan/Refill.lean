import Mathlib
import Raceway.Proofs.Grid.Tiles
import Raceway.Proofs.Plan.BuildsFirst
/-!
# What a fill directive brings back

A fill directive cancels operations by the rows and columns that they name, before composite
operations are expanded. The operations that a composite one stands for remove tiles in its rows
alone, so all that could remove a tile of the filled rows or columns is gone from the merged plan,
apart from operations that remove tiles anywhere. From an unbuilt grid, the merged plan then leads
to a grid that has these tiles.

## Main definitions

* `Raceway.Op.scatters`: the operation removes tiles wherever it likes.
* `Raceway.Op.gapsRow`: the operation is composite and opens a gap in a row.
* `Raceway.Plan.refilled`: the expanded plan after a request that is a fill directive alone.

## Main results

* `Raceway.Op.mayRemove_of_mem_expandOp`: an operation stands for removals within its own.
* `Raceway.Track.holds_execute_expand`: a plan that cannot remove a tile leads to a grid with it.
* `Raceway.Track.isSome_tile?_of_refilled`: the tiles that each fill directive brings back.
-/

namespace Raceway

namespace Op

variable {α : Type}

/-- The operation removes tiles of any row. -/
def scatters : Op α → Bool
  | randomHoles _ | jumpGaps _ => true
  | _ => false

/-- The operation is composite, and the row is one of those in which it opens a gap. -/
def gapsRow (row : UInt32) : Op α → Bool
  | fork a b _ _ | rejoin a b _ => min a b ≤ row && row ≤ max a b
  | _ => false

end Op

/-! ### Expanding -/

section Expand

open Plan

variable {row col : UInt32}

/-- An operation stands for operations that remove no tiles but its own. -/
theorem Op.mayRemove_of_mem_expandOp {default : UInt32} {layout : Layout Float} {op op' : Op Float}
    (hmem : op' ∈ (expandOp default layout op).2) (h : op'.mayRemove row col) :
    op.mayRemove row col := by
  cases standsFor_of_mem_expandOp hmem with
  | itself _ => exact h
  | fork gapStart gapEnd w width hlow hhigh => exact h.1 ▸ ⟨hlow, hhigh⟩
  | rejoin target w width hlow hhigh => exact h.1 ▸ ⟨hlow, hhigh⟩
  | smoothHeights passes => exact h

end Expand

/-- A plan none of whose operations can remove a tile leads to a grid that has it, from nothing. -/
theorem Track.holds_execute_expand {params : Params} {plan : Plan Float} {width row col : UInt32}
    {t : Track} (hplan : ∀ op ∈ plan, ¬ op.mayRemove row col) (ht : t.grid = none)
    (hdone : t.Completes params (plan.expand width).1) :
    (t.execute params (plan.expand width).1).2.Holds row col := by
  have hgrid : (t.reseed (plan.expand width).1.seed).grid = none := (grid_reseed t _).trans ht
  rw [execute_of_completes hdone]
  refine holds_actAll (fun op' hop' hremove => ?_) (holds_of_grid_none hgrid)
  obtain ⟨op, hop, layout, hmem⟩ := Plan.exists_mem_of_mem_expandFrom hop'
  exact hplan op hop (Op.mayRemove_of_mem_expandOp hmem hremove)

/-! ### What is cancelled -/

namespace Op

variable {row col : UInt32} {op : Op Float}

theorem cancels_fillAll_of_mayRemove (h : op.mayRemove row col) :
    (fillAll : Op Float).cancels op = true := by
  cases op <;> first | rfl | exact h.elim

/-- Two ranges that share a row meet. -/
theorem rowsMeet_of_mem {s t : UInt32 × UInt32} (hs : s.1 ≤ row ∧ row ≤ s.2)
    (ht : t.1 ≤ row ∧ row ≤ t.2) : rowsMeet s t = true :=
  Bool.and_eq_true_iff.mpr ⟨decide_eq_true (UInt32.le_trans hs.1 ht.2),
    decide_eq_true (UInt32.le_trans ht.1 hs.2)⟩

theorem cancels_fillRows_of_mayRemove {a b : UInt32} (hrow : min a b ≤ row ∧ row ≤ max a b)
    (hop : op.scatters = false) (h : op.mayRemove row col) :
    (fillRows a b : Op Float).cancels op = true := by
  cases op with
  | deleteRows _ _ => exact rowsMeet_of_mem hrow h
  | deleteTiles _ _ =>
    obtain ⟨rfl, -⟩ := h
    exact rowsMeet_of_mem hrow ⟨UInt32.le_refl _, UInt32.le_refl _⟩
  | fork _ _ _ _ => exact rowsMeet_of_mem hrow h
  | rejoin _ _ _ => exact rowsMeet_of_mem hrow h
  | randomHoles _ => exact Bool.noConfusion hop
  | jumpGaps _ => exact Bool.noConfusion hop
  | _ => exact h.elim

theorem cancels_fillTiles_of_mayRemove {cols : List UInt32}
    (hcol : ∃ c ∈ cols, c.toNat = col.toNat + 1) (hop : op.scatters = false)
    (hgap : op.gapsRow row = false) (h : op.mayRemove row col) :
    (fillTiles cols row : Op Float).cancels op = true := by
  have hnogap {a b : UInt32} (hnot : (min a b ≤ row && row ≤ max a b) = false)
      (h : min a b ≤ row ∧ row ≤ max a b) : False := by
    simp [h.1, h.2] at hnot
  cases op with
  | deleteRows _ _ =>
    exact Bool.and_eq_true_iff.mpr ⟨decide_eq_true h.1, decide_eq_true h.2⟩
  | deleteTiles deleted r =>
    obtain ⟨rfl, c, hc, hcnat⟩ := h
    obtain ⟨c', hc', hcnat'⟩ := hcol
    obtain rfl : c = c' := UInt32.toNat_inj.mp (hcnat.trans hcnat'.symm)
    exact Bool.and_eq_true_iff.mpr
      ⟨beq_self_eq_true r, List.any_eq_true.mpr ⟨c, hc, List.contains_iff_mem.mpr hc'⟩⟩
  | fork _ _ _ _ => exact (hnogap hgap h).elim
  | rejoin _ _ _ => exact (hnogap hgap h).elim
  | randomHoles _ => exact Bool.noConfusion hop
  | jumpGaps _ => exact Bool.noConfusion hop
  | _ => exact h.elim

end Op

/-! ### The request of a fill directive -/

namespace Plan

variable {plan : Plan Float} {fill default op : Op Float}

/-- The expanded plan after a request that is a fill directive alone. -/
def refilled (plan : Plan Float) (fill default : Op Float) (width : UInt32) : Plan Float :=
  ((plan.amend [fill] false default).plan.expand width).1

/-- What is left after a fill directive are operations of the plan that it does not cancel. -/
theorem mem_amend_fill (hfill : fill.isFill = true)
    (h : op ∈ (plan.amend [fill] false default).plan) :
    op = default ∨ op ∈ plan ∧ fill.cancels op = false := by
  rcases mem_amend h with h | h | rfl
  · exact .inr ⟨(mem_keptFor.mp h).1,
      cancels_eq_false_of_mem_keptFor h (List.mem_singleton_self fill) hfill⟩
  · obtain ⟨hop, hadded⟩ := mem_additions.mp h
    rw [List.mem_singleton.mp hop, hfill] at hadded
    cases hadded
  · exact .inl rfl

end Plan

namespace Track

variable {params : Params} {plan : Plan Float} {rows cols width : UInt32} {t : Track} {g : Grid}

/-- The tile is there in the end if the fill directive cancels all that could remove it. -/
theorem isSome_tile?_of_cancels {fill : Op Float} {row col : UInt32} (hfill : fill.isFill = true)
    (hcancels : ∀ op ∈ plan, op.mayRemove row col → fill.cancels op = true) (ht : t.grid = none)
    (hdone : t.Completes params (plan.refilled fill (.build rows cols) width))
    (hg : (t.execute params (plan.refilled fill (.build rows cols) width)).2.grid = some g)
    (hin : g.inBounds row col = true) : (g.tile? row col).isSome = true := by
  refine holds_execute_expand (fun op hop hremove => ?_) ht hdone g hg hin
  rcases Plan.mem_amend_fill hfill hop with rfl | ⟨hop, hkept⟩
  · exact hremove
  · exact Bool.eq_false_iff.mp hkept (hcancels op hop hremove)

/-- The tiles that a request of a fill directive alone brings back, whatever the plan before it and
the default grid are. Carrying out the merged plan on an unbuilt grid leads to a grid that has,
after the directive

* for all rows, every tile;
* for some rows, every tile of these rows, if the plan does not remove tiles anywhere;
* for tiles of a row, these tiles as far as they lie in the grid, if the plan does not remove tiles
  anywhere and opens no gap in the row. -/
theorem isSome_tile?_of_refilled {fill : Op Float} (ht : t.grid = none)
    (hdone : t.Completes params (plan.refilled fill (.build rows cols) width))
    (hg : (t.execute params (plan.refilled fill (.build rows cols) width)).2.grid = some g) :
    (fill = .fillAll →
      ∀ row col, g.inBounds row col = true → (g.tile? row col).isSome = true) ∧
    (∀ a b, fill = .fillRows a b → plan.any Op.scatters = false →
      ∀ row col, min a b ≤ row → row ≤ max a b → g.inBounds row col = true →
        (g.tile? row col).isSome = true) ∧
    (∀ filled row, fill = .fillTiles filled row → plan.any Op.scatters = false →
      plan.any (Op.gapsRow row) = false →
      ∀ col, (∃ c ∈ filled, c.toNat = col.toNat + 1) → g.inBounds row col = true →
        (g.tile? row col).isSome = true) := by
  refine ⟨?_, ?_, ?_⟩
  · rintro rfl row col hin
    exact isSome_tile?_of_cancels rfl (fun _ _ => Op.cancels_fillAll_of_mayRemove) ht hdone hg hin
  · rintro a b rfl hscatter row col hlow hhigh hin
    rw [List.any_eq_false] at hscatter
    refine isSome_tile?_of_cancels rfl (fun op hop => ?_) ht hdone hg hin
    exact Op.cancels_fillRows_of_mayRemove ⟨hlow, hhigh⟩ (Bool.eq_false_iff.mpr (hscatter op hop))
  · rintro filled row rfl hscatter hgap col hcol hin
    rw [List.any_eq_false] at hscatter hgap
    refine isSome_tile?_of_cancels rfl (fun op hop => ?_) ht hdone hg hin
    exact Op.cancels_fillTiles_of_mayRemove hcol (Bool.eq_false_iff.mpr (hscatter op hop))
      (Bool.eq_false_iff.mpr (hgap op hop))

/-- A row comes back that was removed whole and in which a fork opened a gap. -/
theorem isSome_tile?_of_refilled_fork :
    ∃ g, (Track.fresh.execute {} (Plan.refilled
        [.build 3 3, .deleteRows 1 2, .fork 0 1 1 1, .deleteTiles [2] 2] (.fillRows 1 0)
        (.build 1 1) 1)).2.grid = some g ∧
      (g.tile? 1 1).isSome = true := by
  have hdone : Track.fresh.Completes {} (Plan.refilled
      [.build 3 3, .deleteRows 1 2, .fork 0 1 1 1, .deleteTiles [2] 2] (.fillRows 1 0)
      (.build 1 1) 1) := completes_iff_isOk.mpr (by decide +kernel)
  have hbuilt : (Track.fresh.execute {} (Plan.refilled
      [.build 3 3, .deleteRows 1 2, .fork 0 1 1 1, .deleteTiles [2] 2] (.fillRows 1 0)
      (.build 1 1) 1)).2.grid.map (·.inBounds 1 1) = some true := by decide +kernel
  obtain ⟨g, hgrid, hin⟩ := Option.map_eq_some_iff.mp hbuilt
  exact ⟨g, hgrid, (isSome_tile?_of_refilled rfl hdone hgrid).2.1 1 0 rfl rfl 1 1 (by decide)
    (by decide) hin⟩

end Track

end Raceway
