import Mathlib
import Raceway.Proofs.Grid.EvenRows
import Raceway.Proofs.GuardedExecution
/-!
# Views of a grid

The slots of a grid are seen in several ways: place by place, as a list of all tiles with their rows
and columns, as the tiles of one row, and through the numbers of tiles in the grid and in a row. In
a grid that is laid out they tell the same. The list of all tiles goes through the rows in order,
and through each row column by column, so that each tile is listed once, with the place where it is
found.

## Main definitions

* `Raceway.Grid.Reached`: a grid that comes from a full one by operations and single changes.
* `Raceway.Grid.rowTiles`: the tiles of a row, cut out of the slots.
* `Raceway.Grid.placedInRow`: the tiles that are found in a row, column by column.

## Main results

* `Raceway.Grid.Reached.laid`: whatever happens to a grid, it stays laid out.
* `Raceway.Grid.Laid.placed_eq`: the list of all tiles, row by row.
* `Raceway.Grid.views_agree`: the views agree.
-/

namespace Raceway

open Raceway.Random

theorem pairwise_words {start length : ℕ} (h : start + length ≤ UInt32.size) :
    (words start length).Pairwise (· < ·) := by
  rw [words, List.pairwise_map]
  refine List.Pairwise.imp_of_mem (fun {m n} hm hn hlt => ?_) (List.pairwise_lt_range' 1)
  rw [List.mem_range'_1] at hm hn
  rw [UInt32.lt_iff_toNat_lt, UInt32.toNat_ofNat_of_lt' (hm.2.trans_le h),
    UInt32.toNat_ofNat_of_lt' (hn.2.trans_le h)]
  exact hlt

namespace Grid

variable {g : Grid} {row col : UInt32}

/-! ### Grids that are reached -/

theorem Laid.act (h : g.Laid) (params : Params) (op : Op Float) (stream : Stream) :
    (g.act params op stream).1.Laid := by
  obtain ⟨hrows, hcols, -⟩ := within_act params op g stream
  rw [Laid, size_act, hrows, hcols]
  exact h

/-- A grid that was built full and then changed: by operations, by removing single tiles or rows,
and by displacing single tiles. -/
inductive Reached : Grid → Prop
  | full (rows cols : UInt32) : 1 ≤ cols → Reached (full rows cols)
  | perform {g g' : Grid} {params : Params} {op : Op Float} {stream stream' : Stream} {n : ℕ} :
      Reached g → Track.perform params op ⟨some g, stream⟩ = .ok (⟨some g', stream'⟩, n) →
      Reached g'
  | removeTile {g : Grid} (row col : UInt32) : Reached g → Reached (g.removeTile row col).1
  | removeRow {g : Grid} (row : UInt32) : Reached g → Reached (g.removeRow row).1
  | setTile {g : Grid} (row col : UInt32) (t : Tile) : Reached g → Reached (g.setTile row col t)

/-- Whatever happens to a grid, it stays laid out. -/
theorem Reached.laid (h : g.Reached) : g.Laid := by
  induction h with
  | full rows cols => exact size_full rows cols
  | @perform g g' params op stream stream' n _ hperform ih =>
    have hact := congrArg (fun r : Track × ℕ => r.1.grid) (Track.perform_ok hperform)
    cases hop : op.isCreate with
    | true =>
      obtain ⟨rows, cols, rfl⟩ := Op.exists_build_of_isCreate hop
      obtain rfl := Option.some.inj hact
      exact size_full rows cols
    | false =>
      rw [Track.act_of_grid_some hop rfl] at hact
      obtain rfl := Option.some.inj hact
      exact ih.act params op stream
  | removeTile row col _ ih =>
    rw [Grid.removeTile]
    split_ifs
    · exact ih.removeWhere ..
    · exact ih
  | removeRow row _ ih => exact ih.removeWhere ..
  | setTile row col t _ ih =>
    rw [Grid.setTile]
    split_ifs
    · exact (size_mapTiles ..).trans ih
    · exact ih

/-! ### All tiles -/

/-- The list of all tiles, slot by slot. -/
theorem placed_eq_filterMap (g : Grid) :
    g.placed = g.fullSpan.slots.filterMap fun i =>
      (g.slotTile? i).map fun t => (g.rowOf i, g.colOf i, t) := by
  have hzip : g.slots.toList.zipIdx = g.fullSpan.slots.map fun i => (g.slotTile? i, i) := by
    refine List.ext_getElem (by simp [fullSpan, Span.slots]) fun i h _ => ?_
    rw [List.length_zipIdx, Array.length_toList] at h
    simp [fullSpan, Span.slots, slotTile?, h]
  rw [placed, hzip, List.filterMap_map]
  rfl

/-- The tiles that are found in a row, column by column. -/
def placedInRow (g : Grid) (row : UInt32) : List (UInt32 × UInt32 × Tile) :=
  (words 0 g.cols.toNat).filterMap fun col => (g.tile? row col).map fun t => (row, col, t)

/-- The list of all tiles goes through the rows in order, and through each row column by column. -/
theorem Laid.placed_eq (h : g.Laid) : g.placed = (words 0 g.rows.toNat).flatMap g.placedInRow := by
  rw [placed_eq_filterMap, slots_fullSpan h, List.filterMap_flatMap]
  refine List.flatMap_congr fun row hrow => ?_
  have hrow := mem_words_zero.mp hrow
  rw [slots_rowSpan hrow, List.filterMap_map, placedInRow]
  refine List.filterMap_congr fun col hcol => ?_
  have hcol := mem_words_zero.mp hcol
  rw [Function.comp_apply, rowOf_index hcol, colOf_index hcol, tile?,
    if_pos (inBounds_iff.mpr ⟨hrow, hcol⟩)]

theorem mem_placedInRow {x : UInt32 × UInt32 × Tile} :
    x ∈ g.placedInRow row ↔ x.1 = row ∧ g.tile? row x.2.1 = some x.2.2 := by
  rw [placedInRow, List.mem_filterMap]
  constructor
  · rintro ⟨col, -, hx⟩
    obtain ⟨t, ht, rfl⟩ := Option.map_eq_some_iff.mp hx
    exact ⟨rfl, ht⟩
  · rintro ⟨rfl, ht⟩
    exact ⟨x.2.1, mem_words_zero.mpr (lt_of_tile?_eq_some ht).2, by rw [ht]; rfl⟩

/-- A tile is listed with the row and the column where it is found. -/
theorem Laid.mem_placed (h : g.Laid) (row col : UInt32) (t : Tile) :
    (row, col, t) ∈ g.placed ↔ g.tile? row col = some t := by
  rw [h.placed_eq, List.mem_flatMap]
  constructor
  · rintro ⟨row', -, hmem⟩
    obtain ⟨rfl, ht⟩ := mem_placedInRow.mp hmem
    exact ht
  · exact fun ht =>
      ⟨row, mem_words_zero.mpr (lt_of_tile?_eq_some ht).1, mem_placedInRow.mpr ⟨rfl, ht⟩⟩

/-- A place comes before another one, row by row and in each row column by column. -/
def Before (x y : UInt32 × UInt32 × Tile) : Prop :=
  x.1 < y.1 ∨ x.1 = y.1 ∧ x.2.1 < y.2.1

theorem pairwise_placedInRow (g : Grid) (row : UInt32) : (g.placedInRow row).Pairwise Before := by
  have hcols : (words 0 g.cols.toNat).Pairwise (· < ·) :=
    pairwise_words (by simpa using g.cols.toNat_lt.le)
  refine hcols.filterMap _ fun col col' hlt x hx y hy => ?_
  obtain ⟨t, -, rfl⟩ := Option.map_eq_some_iff.mp hx
  obtain ⟨t', -, rfl⟩ := Option.map_eq_some_iff.mp hy
  exact .inr ⟨rfl, hlt⟩

/-- The places of the list of all tiles come one before the other, so that none is listed twice. -/
theorem Laid.pairwise_placed (h : g.Laid) : g.placed.Pairwise Before := by
  rw [h.placed_eq, List.pairwise_flatMap]
  refine ⟨fun row _ => g.pairwise_placedInRow row, ?_⟩
  have hrows : (words 0 g.rows.toNat).Pairwise (· < ·) :=
    pairwise_words (by simpa using g.rows.toNat_lt.le)
  refine hrows.imp fun {row row'} hlt x hx y hy => .inl ?_
  rwa [(mem_placedInRow.mp hx).1, (mem_placedInRow.mp hy).1]

/-! ### The tiles of a row -/

/-- The tiles of a row, cut out of the slots. -/
def rowTiles (g : Grid) (row : UInt32) : List Tile :=
  ((g.slots.extract (g.rowSpan row).start
    ((g.rowSpan row).start + (g.rowSpan row).length)).toList).reduceOption

theorem Laid.rowTiles_eq (h : g.Laid) (row : UInt32) :
    g.rowTiles row = (words 0 g.cols.toNat).filterMap (g.tile? row) := by
  have hcut : (g.slots.extract (g.rowSpan row).start
      ((g.rowSpan row).start + (g.rowSpan row).length)).toList =
        (g.rowSpan row).slots.map g.slotTile? := by
    have hle := h.rowSpan_le row
    refine List.ext_getElem (by simp [Span.slots]; omega) fun i hi _ => ?_
    rw [Array.length_toList, Array.size_extract] at hi
    have hlt : (g.rowSpan row).start + i < g.slots.size := by omega
    simp [Span.slots, slotTile?, hlt]
  rw [rowTiles, hcut, List.reduceOption, List.filterMap_map, Function.id_comp]
  by_cases hrow : row < g.rows
  · rw [slots_rowSpan hrow, List.filterMap_map]
    refine List.filterMap_congr fun col hcol => ?_
    rw [Function.comp_apply, tile?, if_pos (inBounds_iff.mpr ⟨hrow, mem_words_zero.mp hcol⟩)]
  · rw [slots_rowSpan_of_le hrow, List.filterMap_nil]
    refine (List.filterMap_eq_nil_iff.mpr fun col _ => ?_).symm
    exact if_neg fun hin => hrow (inBounds_iff.mp hin).1

/-- A change that goes through the tiles of a row changes those that are found in it. -/
theorem tile?_mapTiles_rowSpan (g : Grid) (f : Tile → Tile) (r row col : UInt32) :
    (g.mapTiles (g.rowSpan r) fun _ t => some (f t)).tile? row col =
      if row = r then (g.tile? row col).map f else g.tile? row col := by
  rw [tile?_mapTiles]
  cases htile : g.tile? row col with
  | none => rw [Option.bind_none, Option.map_none, ite_self, ite_self]
  | some t =>
    have hin := inBounds_iff.mpr (lt_of_tile?_eq_some htile)
    simp only [mem_rowSpan_iff hin]
    rfl

/-! ### Numbers of tiles -/

/-- The tiles of a row are counted column by column. -/
theorem rowTileCount_eq (g : Grid) (row : UInt32) :
    g.rowTileCount row = (words 0 g.cols.toNat).countP fun col => (g.tile? row col).isSome := by
  rw [rowTileCount, countTiles]
  by_cases hrow : row < g.rows
  · rw [slots_rowSpan hrow, List.countP_map]
    refine List.countP_congr fun col hcol => ?_
    rw [Function.comp_apply, tile?, if_pos (inBounds_iff.mpr ⟨hrow, mem_words_zero.mp hcol⟩)]
  · rw [slots_rowSpan_of_le hrow, List.countP_nil, eq_comm, List.countP_eq_zero]
    intro col _
    rw [tile?, if_neg fun hin => hrow (inBounds_iff.mp hin).1]
    exact Bool.false_ne_true

theorem length_placed (g : Grid) : g.placed.length = g.tileCount := by
  rw [placed_eq_filterMap, List.length_filterMap_eq_countP, ← countTiles_fullSpan, countTiles]
  simp only [Option.isSome_map]

/-- The tiles of a grid are those of its rows. -/
theorem Laid.tileCount_eq_sum (h : g.Laid) :
    g.tileCount = ((words 0 g.rows.toNat).map g.rowTileCount).sum := by
  rw [← countTiles_fullSpan, countTiles, slots_fullSpan h, List.countP_flatMap]
  rfl

/-- The views of a grid agree, whatever has happened to the grid. The list of all tiles has each
place where a tile is found once, with that tile, and nothing else, in strictly increasing order of
rows and then of columns. The slots of a row lie in the grid, and the tiles that are cut out with them
are those that are found in the row, column by column, and none for a row behind the grid; a change
that goes through them changes these tiles and no others. The number of tiles is the length of the
list, and the sum of the numbers of tiles in the rows, each of which is the number of columns where a
tile is found. -/
theorem views_agree (h : g.Reached) :
    ((∀ row col t, (row, col, t) ∈ g.placed ↔ g.tile? row col = some t) ∧
      g.placed.Pairwise Before) ∧
    (∀ row, (g.rowSpan row).start + (g.rowSpan row).length ≤ g.slots.size ∧
      g.rowTiles row = (words 0 g.cols.toNat).filterMap (g.tile? row) ∧
      (g.rows ≤ row → g.rowTiles row = []) ∧
      ∀ f r col, (g.mapTiles (g.rowSpan row) fun _ t => some (f t)).tile? r col =
        if r = row then (g.tile? r col).map f else g.tile? r col) ∧
    g.tileCount = g.placed.length ∧
    g.tileCount = ((words 0 g.rows.toNat).map g.rowTileCount).sum ∧
    ∀ row, g.rowTileCount row =
      (words 0 g.cols.toNat).countP fun col => (g.tile? row col).isSome := by
  have hlaid := h.laid
  refine ⟨⟨hlaid.mem_placed, hlaid.pairwise_placed⟩,
    fun row => ⟨hlaid.rowSpan_le row, hlaid.rowTiles_eq row, ?_, ?_⟩,
    g.length_placed.symm, hlaid.tileCount_eq_sum, g.rowTileCount_eq⟩
  · intro hrow
    rw [hlaid.rowTiles_eq, List.filterMap_eq_nil_iff]
    intro col _
    exact if_neg fun hin => UInt32.not_lt.mpr hrow (inBounds_iff.mp hin).1
  · exact fun f r col => g.tile?_mapTiles_rowSpan f row r col

/-- A grid that has lost a single tile, a row and the rest of another row, and whose last tile is
displaced. -/
theorem views_agree_holes :
    ∃ g : Grid, g.Reached ∧ g.rows = 4 ∧ g.tileCount = 5 ∧
      g.placed = [(1, 0, .flat), (1, 1, .flat), (2, 0, .flat), (2, 2, .flat), (3, 2, ⟨1, 0⟩)] ∧
      g.tile? 3 2 = some ⟨1, 0⟩ ∧ g.rowTiles 3 = [⟨1, 0⟩] ∧ g.rowTiles 9 = [] := by
  have hstart : (full 4 3).Reached := .full 4 3 (by decide)
  have hcut : ((((full 4 3).removeRow 0).1.removeTile 2 1).1.removeTile 1 2).1.Reached :=
    .removeTile 1 2 (.removeTile 2 1 (.removeRow 0 hstart))
  have hcheck : Op.check {} (.deleteTiles [1, 2, 0] 3) = .ok () := rfl
  have hperform := Track.perform_of_check hcheck
    ⟨some ((((full 4 3).removeRow 0).1.removeTile 2 1).1.removeTile 1 2).1, Stream.ofSeed 7⟩
  have hreached := Reached.setTile 3 2 ⟨1, 0⟩ (Reached.perform hcut hperform)
  obtain ⟨⟨hmem, -⟩, hrows, hcount, -⟩ := views_agree hreached
  refine ⟨_, hreached, rfl, hcount.trans rfl, rfl, (hmem 3 2 ⟨1, 0⟩).mp ?_, rfl, ?_⟩
  · exact List.mem_of_getLast? rfl
  · exact (hrows 9).2.2.1 (by decide)

end Grid

end Raceway
