import Mathlib
import Raceway.Track
/-!
# Grids up to the displacement of their tiles

Curves, bends, slopes and smoothing displace the tiles that are there and leave the holes where they
are. All other operations look at which tiles are there, and never at where these stand: they do
the same to a grid whose tiles have been put back in their places. Slopes draw as many random
numbers as there are segments of rows, whatever their angles and the tiles are.

## Main definitions

* `Raceway.Grid.flatten`: the grid with all tiles in their places.
* `Raceway.Op.reshapes`: the operation displaces tiles and does nothing else to a grid.

## Main results

* `Raceway.Grid.flatten_act_of_reshapes`: what displaces tiles leaves the flat grid as it is.
* `Raceway.Grid.act_flatten_of_not_reshapes`: what does not displace tiles acts on the flat grid.
* `Raceway.Grid.act_flatten_snd`: what is counted and drawn is the same on the flat grid.
-/

namespace Raceway

open Raceway.Random

namespace Grid

variable {g : Grid} {i : ℕ} {slots : Array (Option Tile)}

/-! ### Tiles in their places -/

/-- The slots with all tiles in their places. -/
def flatSlots (slots : Array (Option Tile)) : Array (Option Tile) :=
  slots.map (Option.map fun _ => Tile.flat)

/-- The grid with all tiles in their places. -/
def flatten (g : Grid) : Grid :=
  { g with slots := flatSlots g.slots }

theorem join_getElem?_flatSlots (slots : Array (Option Tile)) (i : ℕ) :
    (flatSlots slots)[i]?.join = slots[i]?.join.map fun _ => Tile.flat := by
  rw [flatSlots, Array.getElem?_map]
  cases slots[i]? <;> rfl

@[simp] theorem isSome_slotTile?_flatten (g : Grid) (i : ℕ) :
    (g.flatten.slotTile? i).isSome = (g.slotTile? i).isSome := by
  rw [slotTile?, flatten, join_getElem?_flatSlots, Option.isSome_map, slotTile?]

@[simp] theorem flatten_flatten (g : Grid) : g.flatten.flatten = g.flatten := by
  simp [flatten, flatSlots, Function.comp_def]

/-- Changing a tile and then putting all tiles in their places. -/
theorem mapSlot_flatSlots {f f' : Tile → Option Tile}
    (h : ∀ t, (f t).map (fun _ => Tile.flat) = f' Tile.flat) :
    mapSlot f' i (flatSlots slots) = flatSlots (mapSlot f i slots) := by
  refine Array.ext_getElem? fun j => ?_
  simp only [mapSlot, flatSlots, Array.getElem?_modify, Array.getElem?_map]
  split_ifs
  · rcases slots[j]? with _ | _ | t
    · rfl
    · rfl
    · exact congrArg some (h t).symm
  · rfl

theorem foldl_mapSlot_flatSlots {β : Type} {slot : β → ℕ} {f f' : β → Tile → Option Tile}
    (h : ∀ b t, (f b t).map (fun _ => Tile.flat) = f' b Tile.flat) (l : List β) :
    l.foldl (fun slots b => mapSlot (f' b) (slot b) slots) (flatSlots slots) =
      flatSlots (l.foldl (fun slots b => mapSlot (f b) (slot b) slots) slots) :=
  List.foldl_hom flatSlots fun _ b => mapSlot_flatSlots (h b)

theorem mapTiles_flatten {span : Span} {f f' : ℕ → Tile → Option Tile}
    (h : ∀ i t, (f i t).map (fun _ => Tile.flat) = f' i Tile.flat) :
    g.flatten.mapTiles span f' = (g.mapTiles span f).flatten := by
  simp only [mapTiles, flatten, foldl_mapSlot_flatSlots h]

theorem mapSlot_some (i : ℕ) (slots : Array (Option Tile)) : mapSlot some i slots = slots := by
  refine Array.ext_getElem? fun j => ?_
  rw [mapSlot, Array.getElem?_modify]
  split_ifs
  · simp
  · rfl

theorem foldl_mapSlot_some {β : Type} {slot : β → ℕ} (l : List β) (slots : Array (Option Tile)) :
    l.foldl (fun slots b => mapSlot some (slot b) slots) slots = slots := by
  induction l with
  | nil => rfl
  | cons b l ih => rw [List.foldl_cons, mapSlot_some, ih]

/-- Displacing tiles makes no difference to the flat slots. -/
theorem flatSlots_foldl_displace {β : Type} {slot : β → ℕ} (f : β → Tile → Tile) (l : List β)
    (slots : Array (Option Tile)) :
    flatSlots (l.foldl (fun slots b => mapSlot (fun t => some (f b t)) (slot b) slots) slots) =
      flatSlots slots := by
  have hflat (b : β) (t : Tile) : (some (f b t)).map (fun _ => Tile.flat) = some Tile.flat := rfl
  rw [← foldl_mapSlot_flatSlots hflat]
  exact foldl_mapSlot_some l _

theorem flatten_displace (f : ℕ → Tile → Tile) (span : Span) :
    (g.mapTiles span fun i t => some (f i t)).flatten = g.flatten := by
  rw [flatten, mapTiles, flatSlots_foldl_displace, flatten]

/-! ### Counting -/

@[simp] theorem countTiles_flatten (g : Grid) (span : Span) :
    g.flatten.countTiles span = g.countTiles span := by
  simp [countTiles]

@[simp] theorem tileCount_flatten (g : Grid) : g.flatten.tileCount = g.tileCount := by
  rw [tileCount, flatten, flatSlots, Array.countP_map, tileCount]
  refine congrArg (Array.countP · g.slots) (funext fun slot => ?_)
  rw [Function.comp_apply, Option.isSome_map]

@[simp] theorem tilesWhere_flatten (g : Grid) (span : Span) (p : ℕ → Bool) :
    g.flatten.tilesWhere span p = g.tilesWhere span p := by
  simp [tilesWhere]

@[simp] theorem columnSlots_flatten (g : Grid) (col : ℕ) :
    g.flatten.columnSlots col = g.columnSlots col := by
  simp only [columnSlots, isSome_slotTile?_flatten]
  rfl

/-! ### Removing tiles -/

theorem removeWhere_flatten (g : Grid) (span : Span) (p : ℕ → Bool) :
    g.flatten.removeWhere span p = (g.removeWhere span p).map flatten id := by
  have hremove (i : ℕ) (t : Tile) : (if p i then none else some t).map (fun _ => Tile.flat) =
      if p i then none else some Tile.flat := by
    split_ifs <;> rfl
  rw [removeWhere, mapTiles_flatten hremove, tilesWhere_flatten]
  rfl

/-- A random removal with all tiles in their places. -/
def Holes.flatten (s : Holes) : Holes :=
  { s with slots := flatSlots s.slots }

theorem drawHole_flatten (g : Grid) (threshold : Float) (s : Holes) (i : ℕ) :
    g.flatten.drawHole threshold s.flatten i = (g.drawHole threshold s i).flatten := by
  have hprotected : g.flatten.isProtected (g.flatten.rowOf i) = g.isProtected (g.rowOf i) := rfl
  have hnone : mapSlot (fun _ => none) i (flatSlots s.slots) =
      flatSlots (mapSlot (fun _ => none) i s.slots) := mapSlot_flatSlots fun _ => rfl
  simp only [drawHole, Holes.flatten, join_getElem?_flatSlots, Option.isSome_map, hprotected, hnone]
  rcases s.stream.unit with ⟨u, rest⟩
  dsimp only
  split_ifs <;> rfl

theorem randomHoles_flatten (g : Grid) (percent : Float) (stream : Stream) :
    g.flatten.randomHoles percent stream = (g.randomHoles percent stream).map flatten id := by
  have hsize : g.flatten.slots.size = g.slots.size := Array.size_map
  have hfold : (List.range g.slots.size).foldl (g.flatten.drawHole (percent / 100))
      (Holes.flatten ⟨g.slots, stream, 0⟩) =
        Holes.flatten ((List.range g.slots.size).foldl (g.drawHole (percent / 100))
          ⟨g.slots, stream, 0⟩) :=
    List.foldl_hom Holes.flatten (drawHole_flatten g (percent / 100))
  have hstart : (⟨g.flatten.slots, stream, 0⟩ : Holes) = Holes.flatten ⟨g.slots, stream, 0⟩ := rfl
  simp only [randomHoles, hsize, hstart, hfold]
  rfl

theorem cutGap_flatten (s : Grid × ℕ) (row : UInt32) :
    cutGap (s.map flatten id) row = (cutGap s row).map flatten id := by
  have hrow : cutGap (s.map flatten id) row =
      if row < s.1.rows && !s.1.isProtected row then
        ((s.1.flatten.removeRow row).1, s.2 + (s.1.flatten.removeRow row).2)
      else s.map flatten id := rfl
  have hremove : s.1.flatten.removeRow row = (s.1.removeRow row).map flatten id :=
    removeWhere_flatten ..
  rw [hrow, hremove, cutGap]
  split_ifs <;> rfl

theorem jumpGaps_flatten (g : Grid) (n : UInt32) :
    g.flatten.jumpGaps Float n = (g.jumpGaps Float n).map flatten id := by
  have hstart : (g.flatten, 0) = (g, 0).map flatten id := rfl
  have hrows : g.flatten.rows = g.rows := rfl
  rw [jumpGaps, hrows, hstart]
  exact List.foldl_hom (Prod.map flatten id) cutGap_flatten

/-! ### Displacing tiles -/

theorem length_smoothAfter (x : Single) (l : List Single) :
    (smoothAfter x l).length = l.length := by
  induction l generalizing x with
  | nil => rfl
  | cons y l ih =>
    cases l with
    | nil => rfl
    | cons z l => simp only [smoothAfter, List.length_cons, ih]

theorem length_smoothTimes (passes : ℕ) (l : List Single) :
    (smoothTimes passes l).length = l.length := by
  induction passes with
  | zero => rfl
  | succ n ih =>
    have hsmooth (l : List Single) : (smooth l).length = l.length := by
      cases l with
      | nil => rfl
      | cons x l => exact length_smoothAfter x (x :: l)
    rw [smoothTimes, Nat.repeat, hsmooth]
    exact ih

/-- Smoothing visits the tiles of each column. -/
theorem length_smoothedColumn (g : Grid) (passes col : ℕ) :
    (g.smoothedColumn passes col).length = (g.columnSlots col).length := by
  have hheld : ∀ i ∈ g.columnSlots col, ((g.slotTile? i).map (·.height)).isSome = true := by
    intro i hi
    rw [Option.isSome_map]
    exact (List.mem_filter.mp hi).2
  rw [smoothedColumn, List.length_zip, length_smoothTimes, List.length_filterMap_eq_countP,
    List.countP_eq_length.mpr hheld, min_self]

theorem smoothColumns_snd_flatten (g : Grid) (passes : UInt32) :
    (g.flatten.smoothColumns passes).2 = (g.smoothColumns passes).2 := by
  have hcols : g.flatten.cols = g.cols := rfl
  simp [smoothColumns, List.length_flatMap, length_smoothedColumn, hcols]

theorem drawSlope_snd (low high : Float) (stream : Stream) :
    (drawSlope low high stream).2 = stream.unit.2 := by
  rw [drawSlope]

/-- The first row of a segment draws one number, whatever the angles are. -/
theorem Lift.stream_step (low high : Float) (segment : UInt32) (pitch : Float) (row : ℕ)
    (s : Lift) : (s.step low high segment pitch row).stream =
      if row % segment.toNat = 0 then s.stream.unit.2 else s.stream := by
  simp only [step, ← drawSlope_snd low high]
  split_ifs <;> rfl

theorem lifts_succ (low high : Float) (segment : UInt32) (pitch : Float) (n : ℕ)
    (stream : Stream) : (lifts low high segment pitch (n + 1) stream).2 =
      (lifts low high segment pitch n stream).2.step low high segment pitch n := by
  rw [lifts, Nat.fold_succ, ← lifts]

/-- What slopes draw does not depend on their angles. -/
theorem stream_lifts (low high low' high' : Float) (segment : UInt32) (pitch : Float) (rows : ℕ)
    (stream : Stream) :
    (lifts low high segment pitch rows stream).2.stream =
      (lifts low' high' segment pitch rows stream).2.stream := by
  induction rows with
  | zero => rw [lifts, lifts, Nat.fold_zero, Nat.fold_zero]
  | succ n ih => rw [lifts_succ, lifts_succ, Lift.stream_step, Lift.stream_step, ih]

end Grid

/-! ### Operations -/

/-- The operation displaces tiles, and does nothing else to a grid. -/
def Op.reshapes {α : Type} : Op α → Bool
  | curve .. | sBend .. | slopes .. | smoothColumns .. => true
  | _ => false

namespace Grid

variable (params : Params) {op : Op Float}

/-- What displaces tiles makes no difference to the flat grid. -/
theorem flatten_act_of_reshapes (h : op.reshapes = true) (g : Grid) (stream : Stream) :
    (g.act params op stream).1.flatten = g.flatten := by
  cases op with
  | curve a b side degrees => exact flatten_displace _ _
  | sBend a b degrees gain ratio => exact flatten_displace _ _
  | slopes low high segment => exact flatten_displace _ _
  | smoothColumns passes =>
    exact congrArg (fun slots => ({ g with slots := slots } : Grid))
      (flatSlots_foldl_displace (β := ℕ × Single) (fun x t => { t with height := x.2 }) _ _)
  | _ => exact Bool.noConfusion h

/-- What does not displace tiles acts on the flat grid in the same way. -/
theorem act_flatten_of_not_reshapes (h : op.reshapes = false) (g : Grid) (stream : Stream) :
    g.flatten.act params op stream = (g.act params op stream).map flatten id := by
  cases op with
  | deleteRows a b =>
    exact congrArg (act.keep stream) (removeWhere_flatten g (g.rowsSpan a b) fun _ => true)
  | deleteTiles cols row =>
    exact congrArg (act.keep stream) (removeWhere_flatten g (g.rowSpan row) _)
  | randomHoles percent => exact randomHoles_flatten g percent stream
  | jumpGaps n => exact congrArg (act.keep stream) (jumpGaps_flatten g n)
  | curve a b side degrees => exact Bool.noConfusion h
  | sBend a b degrees gain ratio => exact Bool.noConfusion h
  | slopes low high segment => exact Bool.noConfusion h
  | smoothColumns passes => exact Bool.noConfusion h
  | _ => rfl

/-- What is drawn and counted is the same on the flat grid. -/
theorem act_flatten_snd (op : Op Float) (g : Grid) (stream : Stream) :
    (g.flatten.act params op stream).2 = (g.act params op stream).2 := by
  cases hop : op.reshapes with
  | false => rw [act_flatten_of_not_reshapes params hop, Prod.map_snd, id]
  | true =>
    cases op with
    | curve a b side degrees => exact congrArg (Prod.mk stream) (countTiles_flatten g _)
    | sBend a b degrees gain ratio => exact congrArg (Prod.mk stream) (countTiles_flatten g _)
    | slopes low high segment => exact congrArg (Prod.mk _) (tileCount_flatten g)
    | smoothColumns passes => exact congrArg (Prod.mk stream) (smoothColumns_snd_flatten g passes)
    | _ => exact Bool.noConfusion hop

end Grid

end Raceway
