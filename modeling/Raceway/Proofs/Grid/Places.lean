import Mathlib
import Raceway.Proofs.Execution
import Raceway.Proofs.Grid.EvenRows
/-!
# Operations that name their places

Removing rows or tiles of a row, curves and bends change the tiles at the places that they name by
rows and columns, and count them. Rows are given in any order and may lie behind the grid; columns
are counted from one and may be repeated. Which places are meant depends on the numbers alone, and
so does the amount by which a curve or a bend moves the tiles of a row: the part of a range behind
the grid counts for the shape of a curve, although there is nothing to move.

## Main definitions

* `Raceway.Grid.places`: the places of the tiles that pass a test.
* `Raceway.Grid.ChangesAt`: the tiles at some places change, and nothing else does.
* `Raceway.Grid.Covers`: the slots of a range are those of the places that pass a test.

## Main results

* `Raceway.Grid.covers_rowsSpan` and `Raceway.Grid.covers_rowSpan`: the slots that are visited.
* `Raceway.Grid.Covers.changesAt`: a change of the tiles in these slots.
* `Raceway.Track.perform_changesAt`: what the operations change, and what they leave.
-/

namespace Raceway

open Raceway.Random

namespace Grid

variable {g : Grid} {row col r a b : UInt32} {i : ℕ} {span : Span} {q : ℕ → Bool}
  {p : UInt32 → UInt32 → Prop} {f : UInt32 → Tile → Option Tile}

/-- The places of the tiles that pass a test of their rows and columns. -/
def places (g : Grid) (p : UInt32 → UInt32 → Prop) : Set (UInt32 × UInt32) :=
  {x | (g.tile? x.1 x.2).isSome = true ∧ p x.1 x.2}

/-- The tiles at the places that pass a test are changed as their rows say, to other ones or to
none, and there are `n` of them. Nothing else of the grid is changed. -/
structure ChangesAt (g : Grid) (p : UInt32 → UInt32 → Prop) (f : UInt32 → Tile → Option Tile)
    (g' : Grid) (n : ℕ) : Prop where
  /-- The dimensions and the margins are the same. -/
  eq_slots : g' = { g with slots := g'.slots }
  size_eq : g'.slots.size = g.slots.size
  /-- At the places, each tile changes, and a hole stays a hole. -/
  tile?_of (row col : UInt32) : p row col → g'.tile? row col = (g.tile? row col).bind (f row)
  /-- At all other places the tile or the hole is the same. -/
  tile?_of_not (row col : UInt32) : ¬ p row col → g'.tile? row col = g.tile? row col
  /-- The tiles that are changed are counted. -/
  encard_eq : (g.places p).encard = n

/-! ### Visited slots -/

/-- The slots of a range that pass a test are those of the places that pass another one. -/
structure Covers (g : Grid) (span : Span) (q : ℕ → Bool) (p : UInt32 → UInt32 → Prop) :
    Prop where
  mem_iff {row col : UInt32} (hin : g.inBounds row col = true) :
    g.index row col ∈ span.slots ∧ q (g.index row col) = true ↔ p row col
  /-- The range does not reach out of the grid. -/
  exists_index {i : ℕ} : i ∈ span.slots →
    ∃ row col, g.inBounds row col = true ∧ g.index row col = i

theorem exists_index_of_mem_rowSpan (h : i ∈ (g.rowSpan r).slots) :
    ∃ row col, g.inBounds row col = true ∧ g.index row col = i := by
  by_cases hr : r < g.rows
  · rw [slots_rowSpan hr] at h
    obtain ⟨col, hcol, rfl⟩ := List.mem_map.mp h
    exact ⟨r, col, inBounds_iff.mpr ⟨hr, mem_words_zero.mp hcol⟩, rfl⟩
  · rw [slots_rowSpan_of_le hr] at h
    cases h

/-- The slots of the rows between two rows, as far as they lie in the grid. -/
theorem covers_rowsSpan (g : Grid) (a b : UInt32) :
    g.Covers (g.rowsSpan a b) (fun _ => true) fun row _ => min a b ≤ row ∧ row ≤ max a b where
  mem_iff {row col} hin := by
    obtain ⟨hrow, hcol⟩ := inBounds_iff.mp hin
    rw [and_iff_left rfl]
    refine ⟨row_mem_of_mem_rowsSpan hcol, fun ⟨hlow, hhigh⟩ => ?_⟩
    have hcol : col.toNat < g.cols.toNat := hcol
    have hrow : row.toNat + 1 ≤ g.rows.toNat := hrow
    have hlow := Nat.mul_le_mul_right g.cols.toNat (UInt32.le_iff_toNat_le.mp hlow)
    have hstop := Nat.mul_le_mul_right g.cols.toNat
      (le_min (Nat.add_le_add_right (UInt32.le_iff_toNat_le.mp hhigh) 1) hrow)
    rw [Nat.add_one_mul] at hstop
    rw [rowsSpan, mem_slots, index, Nat.sub_mul]
    dsimp only
    omega
  exists_index h := by
    by_cases hfirst : min a b < g.rows
    · rw [slots_rowsSpan hfirst] at h
      obtain ⟨row, -, hi⟩ := List.mem_flatMap.mp h
      exact exists_index_of_mem_rowSpan hi
    · rw [slots_rowsSpan_of_le hfirst] at h
      cases h

/-- The slots of the listed columns of a row, which are counted from one. A column that is no number
of the grid stands for no slot, and a repeated one for the same slot. -/
theorem covers_rowSpan (g : Grid) (cols : List UInt32) (r : UInt32) :
    g.Covers (g.rowSpan r) (fun i => cols.any fun c => c.toNat == (g.colOf i).toNat + 1)
      fun row col => row = r ∧ ∃ c ∈ cols, c.toNat = col.toNat + 1 where
  mem_iff {row col} hin := by
    rw [mem_rowSpan_iff hin, colOf_index (inBounds_iff.mp hin).2, List.any_eq_true]
    simp only [beq_iff_eq]
  exists_index := exists_index_of_mem_rowSpan

/-- The tiles in the visited slots are those at the places that are meant. -/
theorem Covers.encard_places (h : g.Covers span q p) :
    (g.places p).encard = (g.tilesWhere span q).length := by
  have hinj : Set.InjOn (fun x : UInt32 × UInt32 => g.index x.1 x.2) (g.places p) := by
    intro x hx y hy heq
    obtain ⟨t, ht⟩ := Option.isSome_iff_exists.mp hx.1
    obtain ⟨u, hu⟩ := Option.isSome_iff_exists.mp hy.1
    exact index_inj (lt_of_tile?_eq_some ht).2 (lt_of_tile?_eq_some hu).2 heq
  have himage : (fun x : UInt32 × UInt32 => g.index x.1 x.2) '' g.places p =
      ((g.tilesWhere span q).toFinset : Set ℕ) := by
    ext i
    rw [List.coe_toFinset, Set.mem_ofPred_eq, tilesWhere, List.mem_filter, Bool.and_eq_true]
    constructor
    · rintro ⟨⟨row, col⟩, ⟨hsome, hp⟩, rfl⟩
      obtain ⟨t, ht⟩ := Option.isSome_iff_exists.mp hsome
      have hin := inBounds_iff.mpr (lt_of_tile?_eq_some ht)
      obtain ⟨hspan, hq⟩ := (h.mem_iff hin).mpr hp
      rw [tile?, if_pos hin] at hsome
      exact ⟨hspan, hsome, hq⟩
    · rintro ⟨hspan, hsome, hq⟩
      obtain ⟨row, col, hin, rfl⟩ := h.exists_index hspan
      refine ⟨(row, col), ⟨?_, (h.mem_iff hin).mp ⟨hspan, hq⟩⟩, rfl⟩
      rwa [tile?, if_pos hin]
  have hnodup : (g.tilesWhere span q).Nodup := List.Nodup.filter _ List.nodup_range'
  rw [← hinj.encard_image, himage, Set.encard_coe_eq_coe_finsetCard,
    List.toFinset_card_of_nodup hnodup]

/-- A change of the tiles in the visited slots, by rows and columns. -/
theorem Covers.changesAt (h : g.Covers span q p) {f' : ℕ → Tile → Option Tile}
    (hf : ∀ row col t, g.inBounds row col = true →
      f' (g.index row col) t = if q (g.index row col) then f row t else some t) :
    g.ChangesAt p f (g.mapTiles span f') (g.tilesWhere span q).length where
  eq_slots := rfl
  size_eq := size_mapTiles ..
  tile?_of row col hp := by
    rw [tile?_mapTiles]
    cases htile : g.tile? row col with
    | none => exact ite_self _
    | some t =>
      have hin := inBounds_iff.mpr (lt_of_tile?_eq_some htile)
      obtain ⟨hspan, hq⟩ := (h.mem_iff hin).mpr hp
      rw [if_pos hspan, Option.bind_some, hf row col t hin, if_pos hq, Option.bind_some]
  tile?_of_not row col hp := by
    rw [tile?_mapTiles]
    split_ifs with hspan
    · cases htile : g.tile? row col with
      | none => rfl
      | some t =>
        have hin := inBounds_iff.mpr (lt_of_tile?_eq_some htile)
        have hq : ¬ q (g.index row col) = true := fun hq => hp ((h.mem_iff hin).mp ⟨hspan, hq⟩)
        rw [Option.bind_some, hf row col t hin, if_neg hq]
    · rfl
  encard_eq := h.encard_places

/-! ### Removing and moving tiles -/

theorem changesAt_deleteRows (g : Grid) (a b : UInt32) :
    g.ChangesAt (fun row _ => min a b ≤ row ∧ row ≤ max a b) (fun _ _ => none)
      (g.deleteRows a b).1 (g.deleteRows a b).2 :=
  (g.covers_rowsSpan a b).changesAt fun _ _ _ _ => rfl

theorem changesAt_deleteTiles (g : Grid) (cols : List UInt32) (r : UInt32) :
    g.ChangesAt (fun row col => row = r ∧ ∃ c ∈ cols, c.toNat = col.toNat + 1) (fun _ _ => none)
      (g.deleteTiles cols r).1 (g.deleteTiles cols r).2 :=
  (g.covers_rowSpan cols r).changesAt fun _ _ _ _ => rfl

/-- All tiles of a row are moved by the offset for its share of the whole range, of which a part may
lie behind the grid. -/
theorem changesAt_displaceRows (g : Grid) (a b : UInt32) (offset : Float → Float) :
    g.ChangesAt (fun row _ => min a b ≤ row ∧ row ≤ max a b)
      (fun row t => some
        { t with lateral := t.lateral + (offset (rowShare a b row)).toFloat32 })
      (g.displaceRows a b offset).1 (g.displaceRows a b offset).2 := by
  have hcount : (g.displaceRows a b offset).2 =
      (g.tilesWhere (g.rowsSpan a b) fun _ => true).length := by
    rw [displaceRows, countTiles, tilesWhere, List.countP_eq_length_filter]
    simp only [Bool.and_true]
  rw [hcount]
  refine (g.covers_rowsSpan a b).changesAt fun row col t hin => ?_
  rw [rowOf_index (inBounds_iff.mp hin).2, if_pos rfl]

end Grid

/-! ### The live track -/

namespace Track

/-- On every grid that has been built and for all arguments, removing rows takes exactly the tiles
of the rows between the two given ones, and removing tiles those of the row whose columns are
listed, counted from one. A curve or a bend of an accepted angle moves sideways exactly the tiles of
the rows between the two given ones, all tiles of a row by the same amount, which is the same for
every grid and whatever tiles there are. Each of them counts the tiles that it takes or moves. The
other tiles, the holes, the heights, the margins, the dimensions and the random stream stay as they
were. -/
theorem perform_changesAt (params : Params) :
    (∀ (a b : UInt32) (g : Grid) (stream : Stream), ∃ g' n,
      perform params (.deleteRows a b) ⟨some g, stream⟩ = .ok (⟨some g', stream⟩, n) ∧
      g.ChangesAt (fun row _ => min a b ≤ row ∧ row ≤ max a b) (fun _ _ => none) g' n) ∧
    (∀ (cols : List UInt32) (r : UInt32) (g : Grid) (stream : Stream), ∃ g' n,
      perform params (.deleteTiles cols r) ⟨some g, stream⟩ = .ok (⟨some g', stream⟩, n) ∧
      g.ChangesAt (fun row col => row = r ∧ ∃ c ∈ cols, c.toNat = col.toNat + 1)
        (fun _ _ => none) g' n) ∧
    (∀ (a b : UInt32) (side : Side) (degrees : Float), degrees.abs < 90 →
      ∃ amount : UInt32 → Float32, ∀ (g : Grid) (stream : Stream), ∃ g' n,
        perform params (.curve a b side degrees) ⟨some g, stream⟩ =
          .ok (⟨some g', stream⟩, n) ∧
        g.ChangesAt (fun row _ => min a b ≤ row ∧ row ≤ max a b)
          (fun row t => some { t with lateral := t.lateral + amount row }) g' n) ∧
    ∀ (a b : UInt32) (degrees gain ratio : Float), degrees.abs < 90 →
      ∃ amount : UInt32 → Float32, ∀ (g : Grid) (stream : Stream), ∃ g' n,
        perform params (.sBend a b degrees gain ratio) ⟨some g, stream⟩ =
          .ok (⟨some g', stream⟩, n) ∧
        g.ChangesAt (fun row _ => min a b ≤ row ∧ row ≤ max a b)
          (fun row t => some { t with lateral := t.lateral + amount row }) g' n := by
  refine ⟨fun a b g stream => ?_, fun cols r g stream => ?_, fun a b side degrees h => ?_,
    fun a b degrees gain ratio h => ?_⟩
  · exact ⟨_, _, rfl, g.changesAt_deleteRows a b⟩
  · exact ⟨_, _, rfl, g.changesAt_deleteTiles cols r⟩
  · have hcheck : (Op.curve a b side degrees).check params = .ok () := if_pos h
    refine ⟨_, fun g stream => ⟨_, _, ?_, g.changesAt_displaceRows a b
      (Grid.curveOffset (side.sign * (radians degrees).tan * params.lateralScale.toFloat))⟩⟩
    rw [perform_of_check hcheck]
    rfl
  · have hcheck : (Op.sBend a b degrees gain ratio).check params = .ok () := if_pos h
    refine ⟨_, fun g stream => ⟨_, _, ?_, g.changesAt_displaceRows a b
      (Grid.bendOffset ((radians degrees).tan * params.lateralScale.toFloat * gain)
        (Grid.clampFloat 0.05 0.95 ratio))⟩⟩
    rw [perform_of_check hcheck]
    rfl

/-- A grid with a margin has lost a tile in its third row. A range that is given from behind the
grid takes five tiles. Of the listed columns one is zero, one repeated, one has lost its tile, and
one lies outside of the grid, so that a single tile is taken. A curve and a bend move the tiles of
the same range. -/
theorem perform_changesAt_range :
    let g : Grid := { ((Grid.full 4 3).removeTile 2 1).1 with marginEnd := 1 }
    (∃ g', perform {} (.deleteRows 9 2) ⟨some g, Stream.ofSeed 7⟩ =
        .ok (⟨some g', Stream.ofSeed 7⟩, 5) ∧
      (g'.tile? 3 0).isNone = true ∧ g'.tile? 1 2 = g.tile? 1 2) ∧
    (∃ g', perform {} (.deleteTiles [0, 3, 2, 3, 9] 2) ⟨some g, Stream.ofSeed 7⟩ =
        .ok (⟨some g', Stream.ofSeed 7⟩, 1) ∧
      (g'.tile? 2 2).isNone = true ∧ g'.tile? 2 0 = g.tile? 2 0) ∧
    (∃ amount g', perform {} (.curve 9 2 .left 30) ⟨some g, Stream.ofSeed 7⟩ =
        .ok (⟨some g', Stream.ofSeed 7⟩, 5) ∧
      g'.tile? 2 0 = some ⟨0 + amount, 0⟩ ∧ g'.tile? 2 2 = some ⟨0 + amount, 0⟩) ∧
    ∃ amount g', perform {} (.sBend 9 2 30 1 0.5) ⟨some g, Stream.ofSeed 7⟩ =
        .ok (⟨some g', Stream.ofSeed 7⟩, 5) ∧
      g'.tile? 3 1 = some ⟨0 + amount, 0⟩ ∧ g'.tile? 1 1 = g.tile? 1 1 := by
  intro g
  have hangle : (30 : Float).abs < 90 := by decide +kernel
  have hcount {op : Op Float} {g' : Grid} {n k : ℕ}
      (h : perform {} op ⟨some g, Stream.ofSeed 7⟩ = .ok (⟨some g', Stream.ofSeed 7⟩, n))
      (hk : ((perform {} op ⟨some g, Stream.ofSeed 7⟩).toOption.map Prod.snd) = some k) :
      perform {} op ⟨some g, Stream.ofSeed 7⟩ = .ok (⟨some g', Stream.ofSeed 7⟩, k) := by
    rw [h] at hk
    rw [h, ← Option.some.inj hk]
  have htile : g.tile? 2 0 = some ⟨0, 0⟩ ∧ g.tile? 2 2 = some ⟨0, 0⟩ ∧ g.tile? 3 1 = some ⟨0, 0⟩ :=
    ⟨rfl, rfl, rfl⟩
  obtain ⟨hrows, htiles, hcurve, hbend⟩ := perform_changesAt {}
  refine ⟨?_, ?_, ?_, ?_⟩
  · obtain ⟨g', n, hrun, h⟩ := hrows 9 2 g (Stream.ofSeed 7)
    refine ⟨g', hcount hrun (by decide +kernel), ?_, h.tile?_of_not 1 2 (by decide)⟩
    rw [h.tile?_of 3 0 (by decide)]
    rfl
  · obtain ⟨g', n, hrun, h⟩ := htiles [0, 3, 2, 3, 9] 2 g (Stream.ofSeed 7)
    refine ⟨g', hcount hrun (by decide +kernel), ?_, h.tile?_of_not 2 0 (by decide)⟩
    rw [h.tile?_of 2 2 (by decide)]
    rfl
  · obtain ⟨amount, h⟩ := hcurve 9 2 .left 30 hangle
    obtain ⟨g', n, hrun, h⟩ := h g (Stream.ofSeed 7)
    refine ⟨amount 2, g', hcount hrun (by decide +kernel), ?_, ?_⟩
    · rw [h.tile?_of 2 0 (by decide), htile.1, Option.bind_some]
    · rw [h.tile?_of 2 2 (by decide), htile.2.1, Option.bind_some]
  · obtain ⟨amount, h⟩ := hbend 9 2 30 1 0.5 hangle
    obtain ⟨g', n, hrun, h⟩ := h g (Stream.ofSeed 7)
    refine ⟨amount 3, g', hcount hrun (by decide +kernel), ?_, h.tile?_of_not 1 1 (by decide)⟩
    rw [h.tile?_of 3 1 (by decide), htile.2.2, Option.bind_some]

end Track

end Raceway
