import Mathlib
import Raceway.Proofs.Execution
import Raceway.Proofs.Grid.GuardedShape
import Raceway.Proofs.Random.Draws
/-!
# The heights along slopes

The rows of a grid are divided into segments of the same length, of which the last one may be
shorter. Each segment has a slope of its own, which is drawn when its first row is reached, whatever
tiles there are. The first row stays where it is, and each further row lies higher than the one
before by the slope of its own segment. All tiles of a row are raised by the height of the row.

## Main definitions

* `Raceway.Grid.segmentSlope`: the slope of a segment.
* `Raceway.Grid.rise`: the height of a row.

## Main results

* `Raceway.Grid.lifts_eq`: what is known of the slopes up to a row.
* `Raceway.Track.perform_slopes`: slopes follow their segments.
-/

namespace Raceway

open Raceway.Random

namespace Grid

variable (low high : Float) (segment : UInt32) (pitch : Float) (stream : Stream)

/-- The slope of the segment with the given number, counted from zero: the tangent of the angle that
its draw gives. -/
def segmentSlope (k : ℕ) : Float :=
  (radians (low + (high - low) * stream.draw k)).tan

/-- The height of a row over the first one. -/
def rise : ℕ → Float
  | 0 => 0
  | row + 1 =>
    rise row + segmentSlope low high stream ((row + 1) / segment.toNat) * pitch

theorem drawSlope_after (k : ℕ) :
    drawSlope low high (stream.after k) =
      (segmentSlope low high stream k, stream.after (k + 1)) := by
  rw [Stream.after_succ]
  rfl

variable {segment}

/-- A row is the first one of the next segment, or it lies in the segment of the row before. -/
theorem Lift.step_next (row : ℕ) :
    Lift.step low high segment pitch (row + 1)
        ⟨rise low high segment pitch stream row, segmentSlope low high stream (row / segment.toNat),
          stream.after (row / segment.toNat + 1)⟩ =
      ⟨rise low high segment pitch stream (row + 1),
        segmentSlope low high stream ((row + 1) / segment.toNat),
        stream.after ((row + 1) / segment.toNat + 1)⟩ := by
  by_cases hfirst : (row + 1) % segment.toNat = 0
  · simp only [Lift.step, rise, if_pos hfirst, if_pos (Nat.succ_pos row), drawSlope_after,
      Nat.succ_div_of_mod_eq_zero hfirst]
  · simp only [Lift.step, rise, if_neg hfirst, if_pos (Nat.succ_pos row),
      Nat.succ_div_of_mod_ne_zero hfirst]

/-- Up to a row, as many slopes are drawn as segments are reached. -/
theorem lifts_eq (row : ℕ) :
    (lifts low high segment pitch (row + 1) stream).2 =
      ⟨rise low high segment pitch stream row, segmentSlope low high stream (row / segment.toNat),
        stream.after (row / segment.toNat + 1)⟩ := by
  induction row with
  | zero =>
    rw [lifts_succ, lifts_zero, Lift.step, Nat.zero_mod, Nat.zero_div]
    rfl
  | succ row ih => rw [lifts_succ, ih, Lift.step_next]

/-- The height that is added to a row. -/
theorem getD_lifts_eq {rows row : ℕ} (h : row < rows) :
    (lifts low high segment pitch rows stream).1.getD row 0 =
      rise low high segment pitch stream row := by
  rw [getD_lifts low high segment pitch stream h, lifts_eq]

/-- Over all rows, one slope is drawn for each segment, whole or not. -/
theorem stream_lifts_eq (h : 1 ≤ segment) (rows : ℕ) :
    (lifts low high segment pitch rows stream).2.stream =
      stream.after (rows ⌈/⌉ segment.toNat) := by
  have hsegment : 0 < segment.toNat := h
  cases rows with
  | zero => rw [lifts_zero, zero_ceilDiv, Stream.after]
  | succ row =>
    rw [lifts_eq, Nat.ceilDiv_eq_add_pred_div, Nat.add_right_comm, Nat.add_sub_cancel,
      Nat.add_div_right _ hsegment]

/-- Every tile is raised by the height of its row. -/
theorem tile?_slopes (g : Grid) (params : Params) (row col : UInt32) :
    (g.slopes params low high segment stream).1.tile? row col = (g.tile? row col).map fun t =>
      { t with height := t.height +
          (rise low high segment params.rowPitch.toFloat stream row.toNat).toFloat32 } := by
  rw [slopes, tile?_mapTiles_fullSpan]
  cases htile : g.tile? row col with
  | none => rfl
  | some t =>
    obtain ⟨hrow, hcol⟩ := lt_of_tile?_eq_some htile
    rw [rowOf_index hcol, getD_lifts_eq _ _ _ _ (UInt32.lt_iff_toNat_lt.mp hrow)]
    rfl

end Grid

section

variable (params : Params) {low high : Float} {segment : UInt32}

/-- Slopes are accepted for segments with rows and for angles below a right angle. -/
theorem Op.check_slopes (hsegment : 1 ≤ segment) (hlow : low.abs < 90) (hhigh : high.abs < 90) :
    (Op.slopes low high segment).check params = .ok () := by
  have hne : segment ≠ 0 := by
    rintro rfl
    exact absurd hsegment (by decide)
  rw [check, if_neg hne, checkAngle, if_pos hlow, checkAngle, if_pos hhigh]
  rfl

/-- Slopes with accepted angles and segments of at least one row, on every grid that has been built.
One number is drawn for each segment of rows, whole or not, whatever tiles there are. Every tile is
raised by the height of its row, which is that of the row before and the slope of its own segment
over the distance of two rows, and zero for the first row. All tiles are counted, and nothing else
of the grid changes. -/
theorem Track.perform_slopes (hsegment : 1 ≤ segment) (hlow : low.abs < 90) (hhigh : high.abs < 90)
    (g : Grid) (stream : Stream) :
    ∃ g' : Grid,
      perform params (.slopes low high segment) ⟨some g, stream⟩ =
        .ok (⟨some g', stream.after (g.rows.toNat ⌈/⌉ segment.toNat)⟩, g.tileCount) ∧
      g' = { g with slots := g'.slots } ∧ g'.slots.size = g.slots.size ∧
      ∀ row col, g'.tile? row col = (g.tile? row col).map fun t =>
        { t with height := t.height +
            (Grid.rise low high segment params.rowPitch.toFloat stream row.toNat).toFloat32 } := by
  refine ⟨(g.slopes params low high segment stream).1, ?_, rfl, Grid.size_mapTiles .., ?_⟩
  · have hstream :=
      Grid.stream_lifts_eq low high params.rowPitch.toFloat stream hsegment g.rows.toNat
    rw [perform_of_check (Op.check_slopes params hsegment hlow hhigh), ← hstream]
    rfl
  · exact Grid.tile?_slopes low high stream g params

/-- Segments of two rows on five rows, of which the third one has lost a tile. -/
theorem Track.perform_slopes_five :
    let g : Grid := ((Grid.full 5 2).removeTile 2 0).1
    ∃ g', perform {} (.slopes (-5) 5 2) ⟨some g, Stream.ofSeed 7⟩ =
        .ok (⟨some g', (Stream.ofSeed 7).after 3⟩, 9) ∧
      (g'.tile? 2 0).isNone = true ∧ (g'.tile? 4 1).isSome = true := by
  intro g
  have hcount : g.tileCount = 9 := by decide
  have hsegments : g.rows.toNat ⌈/⌉ (2 : UInt32).toNat = 3 := by decide
  have hsegment : (1 : UInt32) ≤ 2 := by decide
  have hlow : (-5 : Float).abs < 90 := by decide +kernel
  have hhigh : (5 : Float).abs < 90 := by decide +kernel
  obtain ⟨g', hperform, -, -, htile⟩ := perform_slopes {} hsegment hlow hhigh g (Stream.ofSeed 7)
  rw [hsegments, hcount] at hperform
  refine ⟨g', hperform, ?_, ?_⟩
  · rw [htile, Option.isNone_map]
    decide
  · rw [htile, Option.isSome_map]
    decide

end

end Raceway
