import Mathlib
import Raceway.Proofs.Grid.Guarded
/-!
# Guarded shaping

Curves, bends and slopes displace the tiles of one row after the other, where the slots of a row are
cut out of those of the grid. Smoothing takes the heights of one column after the other, averages
them place by place, and puts them back. Each of these is written here with the guards of
`Raceway.Guarded`. On a grid that is laid out no guard is ever met, and the result is that of the
operation on ranges of slots.

A column is read after the columns before it have been smoothed. That makes no difference, since a
slot lies in only one column.

## Main definitions

* `Raceway.Grid.guardedMoveRow`: displacing the tiles of a row.
* `Raceway.Grid.Displacement`: what displacing some tiles has to do.
* `Raceway.Grid.guardedSmooth`: averaging heights place by place.

## Main results

* `Raceway.Grid.Laid.guardedDisplaceRows_eq`, `Raceway.Grid.Laid.guardedSlopes_eq` and
  `Raceway.Grid.Laid.guardedSmoothColumns_eq`: guarded shaping meets no guard.
-/

namespace Raceway

open Raceway.Random Guarded

namespace Grid

variable {g : Grid} {row col : UInt32} {slots : Array (Option Tile)}

/-! ### Rows -/

/-- Displace the tiles of a row, which are cut out of the slots, and count them. -/
def guardedMoveRow (f : Tile → Tile) (row : UInt32) (g : Grid) : Guarded (Grid × ℕ) := do
  let span := g.rowSpan row
  cut span.start (← narrow (span.start + span.length)) g.slots.size
  return (g.mapTiles span fun _ t => some (f t), g.countTiles span)

/-- A grid with the tiles in the given slots of another grid displaced, of which there are `n`. -/
structure Displacement (g : Grid) (f : ℕ → Tile → Tile) (is : List ℕ) (g' : Grid) (n : ℕ) :
    Prop where
  grid_eq : g' = { g with slots := displaceSlots f is g.slots }
  count_eq : n = is.countP fun i => (g.slotTile? i).isSome

variable {f : ℕ → Tile → Tile}

theorem displacement_nil (g : Grid) (f : ℕ → Tile → Tile) : g.Displacement f [] g 0 :=
  ⟨rfl, rfl⟩

theorem Displacement.isSome_slotTile? {is : List ℕ} {g' : Grid} {n : ℕ}
    (h : g.Displacement f is g' n) (i : ℕ) :
    (g'.slotTile? i).isSome = (g.slotTile? i).isSome := by
  have hflat : g'.flatten = g.flatten := by
    rw [h.grid_eq]
    exact congrArg (fun slots => ({ g with slots := slots } : Grid))
      (flatSlots_foldl_displace f is g.slots)
  rw [← isSome_slotTile?_flatten, hflat, isSome_slotTile?_flatten]

theorem Displacement.append {g' g'' : Grid} {is js : List ℕ} {n k : ℕ}
    (h : g.Displacement f is g' n) (h' : g'.Displacement f js g'' k) :
    g.Displacement f (is ++ js) g'' (n + k) where
  grid_eq := by rw [h'.grid_eq, h.grid_eq, displaceSlots_append]
  count_eq := by
    rw [List.countP_append, ← h.count_eq, h'.count_eq]
    simp only [h.isSome_slotTile?]

theorem Displacement.laid {is : List ℕ} {g' : Grid} {n : ℕ} (h : g.Displacement f is g' n)
    (hg : g.Laid) : g'.Laid := by
  rw [h.grid_eq]
  exact (size_foldl_changes id _ is g.slots).trans hg

theorem Displacement.rowSpan_eq {is : List ℕ} {g' : Grid} {n : ℕ} (h : g.Displacement f is g' n)
    (row : UInt32) : g'.rowSpan row = g.rowSpan row := by
  rw [h.grid_eq]
  rfl

theorem Laid.guardedMoveRow_eq (h : g.Laid) (f : Tile → Tile) (row : UInt32) :
    guardedMoveRow f row g =
      .ok (g.mapTiles (g.rowSpan row) fun _ t => some (f t), g.rowTileCount row) := by
  have hle := h.rowSpan_le row
  have hwide : g.slots.size < 2 ^ 64 := by
    have hmul := toNat_mul_toNat_le g.rows g.cols
    rw [h]
    omega
  have hcut : cut (g.rowSpan row).start ((g.rowSpan row).start + (g.rowSpan row).length)
      g.slots.size = .ok () := if_pos ⟨Nat.le_add_right .., hle⟩
  rw [guardedMoveRow, narrow_eq (by omega), ok_bind, hcut]
  rfl

/-- After some other displacements, the tiles of a row are displaced and counted. -/
theorem Displacement.exists_guardedMoveRow {is : List ℕ} {g' : Grid} {n : ℕ}
    (h : g.Displacement f is g' n) (hg : g.Laid) (row : UInt32) (f' : Tile → Tile)
    (hf : ∀ i ∈ (g.rowSpan row).slots, f i = f') :
    ∃ g'' k, guardedMoveRow f' row g' = .ok (g'', k) ∧
      g.Displacement f (is ++ (g.rowSpan row).slots) g'' (n + k) := by
  rw [← h.rowSpan_eq] at hf ⊢
  refine ⟨_, _, (h.laid hg).guardedMoveRow_eq f' row, h.append ⟨?_, rfl⟩⟩
  exact congrArg (fun slots => ({ g' with slots := slots } : Grid))
    (displaceSlots_congr (fun i hi => (hf i hi).symm) g'.slots)

/-! ### Curves and bends -/

/-- How far a row lies between two rows. -/
def guardedShare (a b row : UInt32) : Guarded Float :=
  if max a b = min a b then return 1
  else do
    let done ← minus row (min a b)
    let all ← minus (max a b) (min a b)
    return done.toFloat / all.toFloat

/-- Move the tiles of the rows between two rows, row by row. -/
def guardedDisplaceRows (a b : UInt32) (offset : Float → Float) (g : Grid) :
    Guarded (Grid × ℕ) := do
  tally (fun row g => do
    let delta := offset (← guardedShare a b row)
    guardedMoveRow (fun t => { t with lateral := t.lateral + delta.toFloat32 }) row g)
    (← g.guardedRows a b) g

theorem guardedShare_eq {a b : UInt32} (h : min a b ≤ row) :
    guardedShare a b row = .ok (rowShare a b row) := by
  have hle : min a b ≤ max a b := by
    rw [UInt32.le_iff_toNat_le, UInt32.toNat_min, UInt32.toNat_max]
    omega
  have hsame : max a b = min a b ↔ a = b := by
    rw [← UInt32.toNat_inj, ← UInt32.toNat_inj, UInt32.toNat_min, UInt32.toNat_max]
    omega
  rw [guardedShare, rowShare, minus_eq h, minus_eq hle]
  simp only [hsame]
  split_ifs <;> rfl

/-- A tile moved by the offset of its row. -/
def moved (g : Grid) (a b : UInt32) (offset : Float → Float) (i : ℕ) (t : Tile) : Tile :=
  { t with lateral := t.lateral + (offset (rowShare a b (g.rowOf i))).toFloat32 }

theorem Laid.guardedDisplaceRows_eq (h : g.Laid) (a b : UInt32) (offset : Float → Float) :
    guardedDisplaceRows a b offset g = .ok (g.displaceRows a b offset) := by
  obtain ⟨rows, hrows, hslots, hbetween⟩ := exists_guardedRows g a b
  have hmove : ∃ g' n, guardedDisplaceRows a b offset g = .ok (g', n) ∧
      g.Displacement (g.moved a b offset) (rows.flatMap fun row => (g.rowSpan row).slots) g' n := by
    rw [guardedDisplaceRows, hrows]
    refine tally_rule (R := fun done => g.Displacement (g.moved a b offset)
      (done.flatMap fun row => (g.rowSpan row).slots)) ?_ (displacement_nil g _)
    rintro done row rest g' n rfl hdone
    have hrow := hbetween row (List.mem_append_right _ List.mem_cons_self)
    rw [guardedShare_eq hrow.1, ok_bind, List.flatMap_append, List.flatMap_singleton]
    refine hdone.exists_guardedMoveRow h row _ fun i hi => funext fun t => ?_
    rw [moved, rowOf_of_mem_rowSpan hi]
  obtain ⟨g', n, hresult, rfl, rfl⟩ := hmove
  rw [hresult, hslots]
  rfl

/-! ### Slopes -/

/-- Go on to a row and raise its tiles. -/
def guardedSlopeRow (low high : Float) (segment : UInt32) (pitch : Float) (row : UInt32)
    (s : Grid × Lift) : Guarded ((Grid × Lift) × ℕ) := do
  let lift := s.2.step low high segment pitch row.toNat
  let (g, n) ← guardedMoveRow (fun t => { t with height := t.height + lift.height.toFloat32 }) row
    s.1
  return ((g, lift), n)

/-- Raise the rows along segments of random slope, row by row. -/
def guardedSlopes (params : Params) (low high : Float) (segment : UInt32) (g : Grid)
    (stream : Stream) : Guarded (Grid × Stream × ℕ) := do
  let ((g, lift), n) ← tally (guardedSlopeRow low high segment params.rowPitch.toFloat)
    (words 0 g.rows.toNat) (g, ⟨0, 0, stream⟩)
  return (g, lift.stream, n)

theorem lifts_zero (low high : Float) (segment : UInt32) (pitch : Float) (stream : Stream) :
    (lifts low high segment pitch 0 stream).2 = ⟨0, 0, stream⟩ := by
  rw [lifts, Nat.fold_zero]

/-- The height that is added to a row is the one that its step leads to. -/
theorem getD_lifts (low high : Float) (segment : UInt32) (pitch : Float) {n row : ℕ}
    (stream : Stream) (h : row < n) :
    (lifts low high segment pitch n stream).1.getD row 0 =
      (lifts low high segment pitch (row + 1) stream).2.height := by
  have hsize (n : ℕ) : (lifts low high segment pitch n stream).1.size = n := by
    induction n with
    | zero => rw [lifts, Nat.fold_zero]; rfl
    | succ n ih => rw [lifts, Nat.fold_succ, Array.size_push, ← lifts, ih]
  induction n with
  | zero => exact absurd h (Nat.not_lt_zero row)
  | succ n ih =>
    have hpush : (lifts low high segment pitch (n + 1) stream).1 =
        (lifts low high segment pitch n stream).1.push
          (lifts low high segment pitch (n + 1) stream).2.height := by
      rw [lifts_succ, lifts, Nat.fold_succ, ← lifts]
    rw [hpush, Array.getD_eq_getD_getElem?, Array.getElem?_push, hsize]
    split_ifs with hlast
    · rw [hlast, Option.getD_some]
    · rw [← ih (by omega), Array.getD_eq_getD_getElem?]

/-- A tile raised by the height of its row. -/
def raised (g : Grid) (heights : Array Float) (i : ℕ) (t : Tile) : Tile :=
  { t with height := t.height + (heights.getD (g.rowOf i).toNat 0).toFloat32 }

/-- A grid with some rows of another grid raised, which have `n` tiles, and the lift of the last of
them. -/
structure Sloping (g : Grid) (low high : Float) (segment : UInt32) (pitch : Float)
    (stream : Stream) (rows : List UInt32) (s : Grid × Lift) (n : ℕ) : Prop where
  displacement : g.Displacement (g.raised (lifts low high segment pitch g.rows.toNat stream).1)
    (rows.flatMap fun row => (g.rowSpan row).slots) s.1 n
  lift_eq : s.2 = (lifts low high segment pitch rows.length stream).2

theorem Laid.sloping_guardedSlopes (h : g.Laid) (low high : Float) (segment : UInt32)
    (pitch : Float) (stream : Stream) :
    ∃ s n, tally (guardedSlopeRow low high segment pitch) (words 0 g.rows.toNat)
        (g, ⟨0, 0, stream⟩) = .ok (s, n) ∧
      g.Sloping low high segment pitch stream (words 0 g.rows.toNat) s n := by
  refine tally_rule (R := g.Sloping low high segment pitch stream) ?_
    ⟨displacement_nil g _, (lifts_zero ..).symm⟩
  rintro done row rest ⟨g', _⟩ n hwords ⟨hdone, rfl⟩
  obtain ⟨hrow, hlt⟩ := toNat_eq_length_of_words g.rows.toNat_lt.le hwords
  obtain ⟨g'', k, hmove, hround⟩ := hdone.exists_guardedMoveRow h row
    (fun t => { t with height := t.height +
      (lifts low high segment pitch (done.length + 1) stream).2.height.toFloat32 })
    fun i hi => funext fun t => by
      rw [raised, rowOf_of_mem_rowSpan hi, hrow, getD_lifts _ _ _ _ _ hlt]
  refine ⟨(g'', (lifts low high segment pitch (done.length + 1) stream).2), k, ?_, ?_, ?_⟩
  · rw [guardedSlopeRow, hrow, ← lifts_succ]
    dsimp only
    rw [hmove]
    rfl
  · rw [List.flatMap_append, List.flatMap_singleton]
    exact hround
  · rw [List.length_append, List.length_singleton]

theorem Laid.guardedSlopes_eq (h : g.Laid) (params : Params) (low high : Float) (segment : UInt32)
    (stream : Stream) :
    guardedSlopes params low high segment g stream =
      .ok (g.slopes params low high segment stream) := by
  obtain ⟨⟨g', _⟩, n, hresult, ⟨rfl, rfl⟩, rfl⟩ :=
    h.sloping_guardedSlopes low high segment params.rowPitch.toFloat stream
  have hlength : (words 0 g.rows.toNat).length = g.rows.toNat := by
    rw [words, List.length_map, List.length_range']
  rw [guardedSlopes, hresult, ← slots_fullSpan h, hlength, slopes, ← countTiles_fullSpan]
  rfl

/-! ### Smoothing -/

/-- Average the height at a place with its neighbours. -/
def guardedBlend (heights : List Single) (i : ℕ) : Guarded Single := do
  let before ← lookUp (i - 1) heights.length heights[i - 1]?
  let next := min (i + 1) (heights.length - 1)
  let after ← lookUp next heights.length heights[next]?
  let x ← lookUp i heights.length heights[i]?
  return blend before x after

/-- Average heights with their neighbours, place by place. -/
def guardedSmooth (heights : List Single) : Guarded (List Single) :=
  (List.range heights.length).mapM (guardedBlend heights)

/-- Look up the tiles of a column. What is left are the rows that have one, with its height. -/
def guardedColumn (col : UInt32) (g : Grid) : Guarded (List (UInt32 × Single)) := do
  let column ← (words 0 g.rows.toNat).mapM fun row => return (row, ← g.guardedTile? row col)
  return column.filterMap fun (row, t) => t.map fun t => (row, t.height)

/-- Set the height of the tile at a row of a column. -/
def guardedSetHeight (col : UInt32) (g : Grid) (x : UInt32 × Single) : Guarded Grid := do
  let (g, _) ← guardedChange (fun t => some { t with height := x.2 }) x.1 col g
  return g

/-- Smooth the heights along a column, and count its tiles. -/
def guardedSmoothColumn (passes : ℕ) (col : UInt32) (g : Grid) : Guarded (Grid × ℕ) := do
  let column ← guardedColumn col g
  let heights ← (List.range passes).foldlM (fun heights _ => guardedSmooth heights)
    (column.map Prod.snd)
  let g ← ((column.map Prod.fst).zip heights).foldlM (guardedSetHeight col) g
  return (g, column.length)

/-- Smooth the heights along each column, one after the other. -/
def guardedSmoothColumns (passes : UInt32) (g : Grid) : Guarded (Grid × ℕ) :=
  tally (guardedSmoothColumn passes.toNat) (words 0 g.cols.toNat) g

/-- An average is taken of a height and its neighbours. -/
theorem getElem?_smoothAfter (before : Single) (l : List Single) {i : ℕ} (h : i < l.length) :
    (smoothAfter before l)[i]? =
      some (blend ((before :: l).getD i 0) (l.getD i 0)
        (l.getD (min (i + 1) (l.length - 1)) 0)) := by
  induction l generalizing before i with
  | nil => exact absurd h (Nat.not_lt_zero i)
  | cons x l ih =>
    cases l with
    | nil =>
      obtain rfl : i = 0 := Nat.lt_one_iff.mp h
      rfl
    | cons y l =>
      cases i with
      | zero => rfl
      | succ i =>
        have hi : i < (y :: l).length := Nat.lt_of_succ_lt_succ h
        have hafter : min (i + 1 + 1) ((x :: y :: l).length - 1) =
            min (i + 1) ((y :: l).length - 1) + 1 := by
          simp only [List.length_cons]
          omega
        rw [smoothAfter, List.getElem?_cons_succ, ih x hi, hafter, List.getD_cons_succ,
          List.getD_cons_succ, List.getD_cons_succ]

theorem guardedBlend_eq {heights : List Single} {i : ℕ} (h : i < heights.length) :
    guardedBlend heights i = .ok (blend (heights.getD (i - 1) 0) (heights.getD i 0)
      (heights.getD (min (i + 1) (heights.length - 1)) 0)) := by
  have hlookUp {i : ℕ} (hi : i < heights.length) :
      lookUp i heights.length heights[i]? = .ok (heights.getD i 0) := by
    rw [List.getD_eq_getElem?_getD, List.getElem?_eq_getElem hi]
    rfl
  have hnext : min (i + 1) (heights.length - 1) < heights.length := by omega
  rw [guardedBlend, hlookUp h, hlookUp (i := i - 1) (by omega)]
  dsimp only
  rw [ok_bind, hlookUp hnext]
  rfl

theorem guardedSmooth_eq (heights : List Single) :
    guardedSmooth heights = .ok (smooth heights) := by
  rw [guardedSmooth, mapM_eq_ok fun i hi => guardedBlend_eq (List.mem_range.mp hi)]
  refine congrArg Except.ok (List.ext_getElem? fun i => ?_)
  cases heights with
  | nil => rfl
  | cons x rest =>
    rw [smooth, List.getElem?_map]
    by_cases hi : i < (x :: rest).length
    · have hbefore : (x :: x :: rest).getD i 0 = (x :: rest).getD (i - 1) 0 := by
        cases i <;> rfl
      rw [getElem?_smoothAfter x _ hi, List.getElem?_range hi, hbefore]
      rfl
    · have hlength := length_smoothAfter x (x :: rest)
      rw [List.getElem?_eq_none (by rw [List.length_range]; omega),
        List.getElem?_eq_none (by omega)]
      rfl

theorem foldlM_guardedSmooth (passes : ℕ) (heights : List Single) :
    (List.range passes).foldlM (fun heights _ => guardedSmooth heights) heights =
      .ok (smoothTimes passes heights) := by
  induction passes with
  | zero => rfl
  | succ n ih =>
    rw [List.range_succ, foldlM_append_of_ok ih, List.foldlM_cons, guardedSmooth_eq]
    rfl

/-- The tiles of a column, by rows and by slots. -/
theorem Laid.exists_guardedColumn (h : g.Laid) (hcol : col < g.cols) :
    ∃ column, guardedColumn col g = .ok column ∧
      (∀ x ∈ column, x.1 < g.rows) ∧
      column.map (fun x => g.index x.1 col) = g.columnSlots col.toNat ∧
      column.map Prod.snd =
        (g.columnSlots col.toNat).filterMap fun i => (g.slotTile? i).map (·.height) := by
  have hlookUp : ∀ row ∈ words 0 g.rows.toNat,
      (do return (row, ← g.guardedTile? row col)) =
        Except.ok (ε := Misstep) (row, g.slotTile? (g.index row col)) := by
    intro row hrow
    rw [h.guardedTile?_eq, tile?, if_pos (inBounds_iff.mpr ⟨mem_words_zero.mp hrow, hcol⟩)]
    rfl
  have hslots := g.columnSlots_toNat col
  refine ⟨_, by rw [guardedColumn, mapM_eq_ok hlookUp]; rfl, ?_, ?_, ?_⟩
  · intro x hx
    obtain ⟨⟨row, t⟩, hrow, hx⟩ := List.mem_filterMap.mp hx
    obtain ⟨row', hrow', heq⟩ := List.mem_map.mp hrow
    obtain ⟨rfl, rfl⟩ := Prod.mk.inj heq
    obtain ⟨t, -, rfl⟩ := Option.map_eq_some_iff.mp hx
    exact mem_words_zero.mp hrow'
  · rw [hslots]
    generalize words 0 g.rows.toNat = rows
    induction rows with
    | nil => rfl
    | cons row rows ih =>
      rw [List.map_cons, List.map_cons, List.filter_cons, List.filterMap_cons, ← ih]
      cases g.slotTile? (g.index row col) <;> rfl
  · rw [hslots]
    generalize words 0 g.rows.toNat = rows
    induction rows with
    | nil => rfl
    | cons row rows ih =>
      rw [List.map_cons, List.map_cons, List.filter_cons, List.filterMap_cons]
      cases htile : g.slotTile? (g.index row col) with
      | none => exact ih
      | some t =>
        rw [Option.isSome_some, if_pos rfl, List.filterMap_cons, htile]
        exact congrArg (t.height :: ·) ih

theorem size_setHeights (slots : Array (Option Tile)) (heights : List (ℕ × Single)) :
    (setHeights slots heights).size = slots.size :=
  size_foldl_changes Prod.fst (fun x t => some { t with height := x.2 }) heights slots

theorem setHeights_append (slots : Array (Option Tile)) (l l' : List (ℕ × Single)) :
    setHeights slots (l ++ l') = setHeights (setHeights slots l) l' :=
  List.foldl_append

theorem Laid.foldlM_guardedSetHeight (h : g.Laid) (hcol : col < g.cols)
    (heights : List (UInt32 × Single)) (hrows : ∀ x ∈ heights, x.1 < g.rows) :
    heights.foldlM (guardedSetHeight col) g =
      .ok { g with slots := setHeights g.slots (heights.map fun x => (g.index x.1 col, x.2)) } := by
  induction heights generalizing g with
  | nil => rfl
  | cons x heights ih =>
    obtain ⟨hrow, hrest⟩ := List.forall_mem_cons.mp hrows
    have hset : guardedSetHeight col g x =
        .ok { g with slots := setHeights g.slots [(g.index x.1 col, x.2)] } := by
      rw [guardedSetHeight, h.guardedChange_eq, slotsAt_of_lt hrow hcol]
      rfl
    rw [foldlM_cons_of_ok hset]
    exact ih ((size_setHeights ..).trans h) hcol hrest

theorem Laid.guardedSmoothColumn_eq (h : g.Laid) (hcol : col < g.cols) (passes : ℕ) :
    guardedSmoothColumn passes col g =
      .ok ({ g with slots := setHeights g.slots (g.smoothedColumn passes col.toNat) },
        (g.smoothedColumn passes col.toNat).length) := by
  obtain ⟨column, hcolumn, hrows, hslots, hheights⟩ := h.exists_guardedColumn hcol
  have hzip : ((column.map Prod.fst).zip (smoothTimes passes (column.map Prod.snd))).map
      (fun x => (g.index x.1 col, x.2)) = g.smoothedColumn passes col.toNat := by
    have hindex : column.map (fun x => g.index x.1 col) =
        (column.map Prod.fst).map (g.index · col) := by
      rw [List.map_map]
      rfl
    rw [smoothedColumn, ← hheights, ← hslots, hindex]
    exact (List.zip_map_left (f := fun row => g.index row col) ..).symm
  have hset := h.foldlM_guardedSetHeight hcol
    ((column.map Prod.fst).zip (smoothTimes passes (column.map Prod.snd))) fun x hx => by
      obtain ⟨y, hy, hxy⟩ := List.mem_map.mp (List.of_mem_zip hx).1
      exact hxy ▸ hrows y hy
  rw [hzip] at hset
  rw [guardedSmoothColumn, hcolumn, ok_bind, foldlM_guardedSmooth, ok_bind, hset,
    length_smoothedColumn, ← hslots, List.length_map]
  rfl

/-- A change of heights leaves the slots alone that are not named. -/
theorem getElem?_setHeights_of_notMem {heights : List (ℕ × Single)} {i : ℕ}
    (h : i ∉ heights.map Prod.fst) (slots : Array (Option Tile)) :
    (setHeights slots heights)[i]? = slots[i]? := by
  induction heights generalizing slots with
  | nil => rfl
  | cons x heights ih =>
    rw [List.map_cons, List.mem_cons, not_or] at h
    have hcons : setHeights slots (x :: heights) =
        setHeights (mapSlot (fun t => some { t with height := x.2 }) x.1 slots) heights := rfl
    rw [hcons, ih h.2, mapSlot, Array.getElem?_modify, if_neg (Ne.symm h.1)]

/-- The smoothed heights of a column depend on the tiles of that column. -/
theorem smoothedColumn_congr {c : ℕ}
    (h : ∀ row, slots[row * g.cols.toNat + c]?.join = g.slotTile? (row * g.cols.toNat + c))
    (passes : ℕ) :
    smoothedColumn { g with slots := slots } passes c = g.smoothedColumn passes c := by
  have hslots : columnSlots { g with slots := slots } c = g.columnSlots c := by
    refine List.filter_congr fun i hi => ?_
    obtain ⟨row, -, rfl⟩ := List.mem_map.mp hi
    exact congrArg Option.isSome (h row)
  have hheights : (g.columnSlots c).filterMap (fun i => slots[i]?.join.map (·.height)) =
      (g.columnSlots c).filterMap fun i => (g.slotTile? i).map (·.height) := by
    refine List.filterMap_congr fun i hi => ?_
    obtain ⟨row, -, rfl⟩ := List.mem_map.mp (List.mem_filter.mp hi).1
    rw [h]
  rw [smoothedColumn, hslots, smoothedColumn, ← hheights]
  rfl

/-- The slots of a smoothed column lie in that column. -/
theorem mod_of_mem_smoothedColumn {passes c : ℕ} (hc : c < g.cols.toNat) {x : ℕ × Single}
    (h : x ∈ g.smoothedColumn passes c) : x.1 % g.cols.toNat = c :=
  mod_of_mem_columnSlots hc (List.of_mem_zip (b := x.2) h).1

/-- The smoothed heights of some columns. -/
def smoothedColumns (g : Grid) (passes : ℕ) (cols : List UInt32) : List (ℕ × Single) :=
  cols.flatMap fun col => g.smoothedColumn passes col.toNat

/-- Smoothing a column leaves the columns behind it alone. -/
theorem smoothedColumn_setHeights {passes : ℕ} {done rest : List UInt32}
    (h : words 0 g.cols.toNat = done ++ col :: rest) :
    smoothedColumn { g with slots := setHeights g.slots (g.smoothedColumns passes done) } passes
      col.toNat = g.smoothedColumn passes col.toNat := by
  have hcols : g.cols.toNat ≤ UInt32.size := g.cols.toNat_lt.le
  obtain ⟨hcol, hlt⟩ := toNat_eq_length_of_words hcols h
  refine smoothedColumn_congr (fun row => ?_) passes
  refine congrArg Option.join (getElem?_setHeights_of_notMem (fun hslots => ?_) g.slots)
  obtain ⟨x, hx, hslot⟩ := List.mem_map.mp hslots
  obtain ⟨col', hmem, hcolumn⟩ := List.mem_flatMap.mp hx
  obtain ⟨before, after, rfl⟩ := List.append_of_mem hmem
  rw [List.append_assoc, List.cons_append] at h
  obtain ⟨hcol', hlt'⟩ := toNat_eq_length_of_words hcols h
  -- A slot lies in one column only, and the two columns have different numbers.
  have hmod := mod_of_mem_smoothedColumn (hcol' ▸ hlt') hcolumn
  rw [hslot, Nat.add_comm, Nat.add_mul_mod_self_right, Nat.mod_eq_of_lt (hcol ▸ hlt), hcol, hcol',
    List.length_append, List.length_cons] at hmod
  omega

/-- A grid with some columns of another grid smoothed, which have `n` tiles. -/
structure Smoothing (g : Grid) (passes : ℕ) (cols : List UInt32) (g' : Grid) (n : ℕ) : Prop where
  grid_eq : g' = { g with slots := setHeights g.slots (g.smoothedColumns passes cols) }
  count_eq : n = (g.smoothedColumns passes cols).length

theorem smoothedColumns_words (g : Grid) (passes : ℕ) :
    g.smoothedColumns passes (words 0 g.cols.toNat) =
      (List.range g.cols.toNat).flatMap (g.smoothedColumn passes) := by
  rw [smoothedColumns, words, List.flatMap_map, List.range_eq_range']
  refine List.flatMap_congr fun c hc => ?_
  have hlt : c < 0 + g.cols.toNat := (List.mem_range'_1.mp hc).2
  have hcols := g.cols.toNat_lt
  rw [UInt32.toNat_ofNat_of_lt' (by rw [UInt32.size]; omega)]

theorem Laid.guardedSmoothColumns_eq (h : g.Laid) (passes : UInt32) :
    guardedSmoothColumns passes g = .ok (g.smoothColumns passes) := by
  have hsmooth : ∃ g' n, guardedSmoothColumns passes g = .ok (g', n) ∧
      g.Smoothing passes.toNat (words 0 g.cols.toNat) g' n := by
    refine tally_rule (R := g.Smoothing passes.toNat) ?_ ⟨rfl, rfl⟩
    rintro done col rest _ _ hwords ⟨rfl, rfl⟩
    have hcol : col < g.cols := mem_words_zero.mp
      (hwords ▸ List.mem_append_right _ List.mem_cons_self)
    have happend : g.smoothedColumns passes.toNat (done ++ [col]) =
        g.smoothedColumns passes.toNat done ++ g.smoothedColumn passes.toNat col.toNat := by
      rw [smoothedColumns, List.flatMap_append, List.flatMap_singleton, smoothedColumns]
    have hlaid : Laid { g with
        slots := setHeights g.slots (g.smoothedColumns passes.toNat done) } :=
      (size_setHeights ..).trans h
    have hround := hlaid.guardedSmoothColumn_eq hcol passes.toNat
    rw [smoothedColumn_setHeights hwords] at hround
    refine ⟨_, _, hround, ?_, ?_⟩
    · rw [happend, setHeights_append]
    · rw [happend, List.length_append]
  obtain ⟨g', n, hresult, rfl, rfl⟩ := hsmooth
  rw [hresult, smoothedColumns_words]
  rfl

end Grid

end Raceway
