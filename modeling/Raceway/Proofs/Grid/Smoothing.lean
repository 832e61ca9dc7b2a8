import Mathlib
import Raceway.Proofs.Decimal.Packing
import Raceway.Proofs.Execution
import Raceway.Proofs.Grid.GuardedShape
/-!
# Smoothing in parts

Smoothing takes the heights of the tiles of a column, row by row and without the gaps between them,
averages them with their neighbours as often as there are passes, and puts them back in the same
order. A second smoothing finds the heights that the first one left in the same slots, so that it
goes on where that ended.

An average takes a quarter of a height from each of its two neighbours, and gives a quarter to each
of them. The first and the last height keep the quarter that has nowhere to go. So, read over exact
numbers, the sum of the heights of a column stays the same, and no height leaves the range of the
heights before.

## Main definitions

* `Raceway.Grid.heights`: the heights of the tiles of a column, row by row.
* `Raceway.Grid.slotsByColumn`: the slots that hold a tile, column by column.
* `Raceway.Grid.smoothed`: the grid with smoothed heights.

## Main results

* `Raceway.Grid.sum_repeat_smooth` and `Raceway.Grid.exists_le_of_mem_repeat_smooth`: averages over
  exact numbers.
* `Raceway.Grid.smoothTimes_map_ofFloat32`: the bits of numbers are averaged as the numbers are.
* `Raceway.Grid.heights_smoothed`: the new heights of a column.
* `Raceway.Grid.smoothed_smoothed`: smoothing once and again.
* `Raceway.Track.perform_smoothColumns`: what smoothing does.
-/

namespace Raceway

open Raceway.Random

namespace Grid

/-! ### Averages in exact numbers -/

section Exact

variable {low high before x : ℚ} {l : List ℚ}

theorem blend_eq (before x after : ℚ) : blend before x after = (before + 2 * x + after) / 4 := by
  rw [blend]
  norm_num
  ring

/-- The first height of a list takes a quarter of the difference to the one before, and nothing is
lost between the others. -/
theorem sum_smoothAfter (before x : ℚ) (l : List ℚ) :
    (smoothAfter before (x :: l)).sum = (x :: l).sum + (before - x) / 4 := by
  induction l generalizing before x with
  | nil =>
    rw [smoothAfter, List.sum_singleton, List.sum_singleton, blend_eq]
    ring
  | cons y l ih =>
    simp only [smoothAfter, List.sum_cons, ih, blend_eq]
    ring

/-- A pass keeps the sum of the heights. -/
theorem sum_smooth (l : List ℚ) : (smooth l).sum = l.sum := by
  cases l with
  | nil => rfl
  | cons x l => rw [smooth, sum_smoothAfter, sub_self, zero_div, add_zero]

theorem blend_mem_Icc {after : ℚ} (hbefore : before ∈ Set.Icc low high) (hx : x ∈ Set.Icc low high)
    (hafter : after ∈ Set.Icc low high) : blend before x after ∈ Set.Icc low high := by
  obtain ⟨hbefore, hbefore'⟩ := hbefore
  obtain ⟨hx, hx'⟩ := hx
  obtain ⟨hafter, hafter'⟩ := hafter
  rw [blend_eq]
  constructor <;> linarith

theorem smoothAfter_mem_Icc (hbefore : before ∈ Set.Icc low high)
    (hl : ∀ y ∈ l, y ∈ Set.Icc low high) :
    ∀ y ∈ smoothAfter before l, y ∈ Set.Icc low high := by
  induction l generalizing before with
  | nil => exact List.forall_mem_nil _
  | cons x l ih =>
    obtain ⟨hx, hrest⟩ := List.forall_mem_cons.mp hl
    cases l with
    | nil => exact List.forall_mem_singleton.mpr (blend_mem_Icc hbefore hx hx)
    | cons y l =>
      rw [smoothAfter, List.forall_mem_cons]
      exact ⟨blend_mem_Icc hbefore hx (hrest y List.mem_cons_self), ih hx hrest⟩

/-- A pass keeps the heights in every range that they lie in. -/
theorem smooth_mem_Icc (hl : ∀ y ∈ l, y ∈ Set.Icc low high) :
    ∀ y ∈ smooth l, y ∈ Set.Icc low high := by
  cases l with
  | nil => exact hl
  | cons x l => exact smoothAfter_mem_Icc (hl x List.mem_cons_self) hl

theorem sum_repeat_smooth (passes : ℕ) (l : List ℚ) : (passes.repeat smooth l).sum = l.sum := by
  induction passes with
  | zero => rfl
  | succ n ih => rw [Nat.repeat, sum_smooth, ih]

theorem repeat_smooth_mem_Icc (passes : ℕ) (hl : ∀ y ∈ l, y ∈ Set.Icc low high) :
    ∀ y ∈ passes.repeat smooth l, y ∈ Set.Icc low high := by
  induction passes with
  | zero => exact hl
  | succ n ih => exact smooth_mem_Icc ih

/-- Each height lies between two of the heights that were there before all passes. -/
theorem exists_le_of_mem_repeat_smooth (passes : ℕ) (hx : x ∈ passes.repeat smooth l) :
    ∃ a ∈ l, ∃ b ∈ l, a ≤ x ∧ x ≤ b := by
  have hpos : 0 < l.length := by
    rw [List.length_pos_iff]
    rintro rfl
    -- Without heights, all of them lie in an empty range.
    have hempty : x ∈ Set.Icc (1 : ℚ) 0 :=
      repeat_smooth_mem_Icc passes (List.forall_mem_nil _) x hx
    exact absurd (hempty.1.trans hempty.2) (by norm_num)
  have hrange : ∀ y ∈ l,
      y ∈ Set.Icc (l.minimum_of_length_pos hpos) (l.maximum_of_length_pos hpos) := fun y hy =>
    ⟨List.minimum_of_length_pos_le_of_mem hy hpos, List.le_maximum_of_length_pos_of_mem hy hpos⟩
  exact ⟨_, List.minimum_of_length_pos_mem hpos, _, List.maximum_of_length_pos_mem hpos,
    repeat_smooth_mem_Icc passes hrange x hx⟩

end Exact

/-! ### Averages by their bits -/

section Bits

open Single

theorem toFloat32_ofFloat32 (x : Float32) : (ofFloat32 x).toFloat32 = x :=
  Decimal.single_ofBits_toBits x

theorem ofFloat32_add (x y : Float32) : ofFloat32 (x + y) = ofFloat32 x + ofFloat32 y := by
  change _ = ofFloat32 ((ofFloat32 x).toFloat32 + (ofFloat32 y).toFloat32)
  rw [toFloat32_ofFloat32, toFloat32_ofFloat32]

theorem ofFloat32_mul (x y : Float32) : ofFloat32 (x * y) = ofFloat32 x * ofFloat32 y := by
  change _ = ofFloat32 ((ofFloat32 x).toFloat32 * (ofFloat32 y).toFloat32)
  rw [toFloat32_ofFloat32, toFloat32_ofFloat32]

theorem blend_ofFloat32 (before x after : Float32) :
    blend (ofFloat32 before) (ofFloat32 x) (ofFloat32 after) =
      ofFloat32 (blend before x after) := by
  rw [blend, blend, ofFloat32_add, ofFloat32_add, ofFloat32_mul, ofFloat32_mul, ofFloat32_mul]
  rfl

theorem smoothAfter_map_ofFloat32 (before : Float32) (l : List Float32) :
    smoothAfter (ofFloat32 before) (l.map ofFloat32) = (smoothAfter before l).map ofFloat32 := by
  induction l generalizing before with
  | nil => rfl
  | cons x l ih =>
    cases l with
    | nil => rw [List.map_singleton, smoothAfter, smoothAfter, blend_ofFloat32, List.map_singleton]
    | cons y l =>
      rw [List.map_cons, List.map_cons, smoothAfter, smoothAfter, blend_ofFloat32, List.map_cons,
        ← ih, List.map_cons]

/-- The bits of numbers are averaged as the numbers are. -/
theorem smoothTimes_map_ofFloat32 (passes : ℕ) (l : List Float32) :
    smoothTimes passes (l.map ofFloat32) = (passes.repeat smooth l).map ofFloat32 := by
  have hsmooth (l : List Float32) : smooth (l.map ofFloat32) = (smooth l).map ofFloat32 := by
    cases l with
    | nil => rfl
    | cons x l => exact smoothAfter_map_ofFloat32 x (x :: l)
  rw [smoothTimes]
  induction passes with
  | zero => rfl
  | succ n ih => rw [Nat.repeat, ih, hsmooth, Nat.repeat]

end Bits

/-! ### Smoothing once and again -/

variable {g : Grid} {col : UInt32} {c i : ℕ} {slots : Array (Option Tile)}
  {l l' : List (ℕ × Single)}

theorem repeat_repeat {α : Type} (f : α → α) (m n : ℕ) (a : α) :
    n.repeat f (m.repeat f a) = (m + n).repeat f a := by
  induction n with
  | zero => rfl
  | succ n ih => rw [Nat.repeat, ih, ← Nat.add_assoc, Nat.repeat]

theorem smoothTimes_smoothTimes (p q : ℕ) (heights : List Single) :
    smoothTimes q (smoothTimes p heights) = smoothTimes (p + q) heights :=
  repeat_repeat smooth p q heights

/-! ### Heights in slots -/

/-- The heights of the tiles in some slots. -/
def slotHeights (g : Grid) (is : List ℕ) : List Single :=
  is.filterMap fun i => (g.slotTile? i).map (·.height)

/-- Where no slot is named twice, each gets its own height. -/
theorem getElem?_setHeights_of_mem (hnodup : (l.map Prod.fst).Nodup) {x : ℕ × Single} (hx : x ∈ l)
    (slots : Array (Option Tile)) :
    (setHeights slots l)[x.1]? =
      slots[x.1]?.map (Option.map fun t => { t with height := x.2 }) := by
  induction l generalizing slots with
  | nil => cases hx
  | cons y l ih =>
    obtain ⟨hy, hnodup⟩ := List.nodup_cons.mp hnodup
    have hcons : setHeights slots (y :: l) =
        setHeights (mapSlot (fun t => some { t with height := y.2 }) y.1 slots) l := rfl
    rw [hcons]
    rcases List.mem_cons.mp hx with rfl | hx
    · rw [getElem?_setHeights_of_notMem hy, mapSlot, Array.getElem?_modify, if_pos rfl]
      rcases slots[x.1]? with _ | _ | t <;> rfl
    · have hne : y.1 ≠ x.1 := fun h => hy (h ▸ List.mem_map_of_mem hx)
      rw [ih hnodup hx, mapSlot, Array.getElem?_modify, if_neg hne]

/-- Heights that are set in the same slots again replace those set before. -/
theorem setHeights_setHeights (hfst : l.map Prod.fst = l'.map Prod.fst)
    (hnodup : (l.map Prod.fst).Nodup) (slots : Array (Option Tile)) :
    setHeights (setHeights slots l) l' = setHeights slots l' := by
  refine Array.ext_getElem? fun i => ?_
  by_cases hi : i ∈ l.map Prod.fst
  · obtain ⟨x, hx, rfl⟩ := List.mem_map.mp hi
    obtain ⟨x', hx', hslot⟩ := List.mem_map.mp (hfst ▸ hi)
    rw [← hslot, getElem?_setHeights_of_mem (hfst ▸ hnodup) hx', hslot,
      getElem?_setHeights_of_mem hnodup hx, ← hslot,
      getElem?_setHeights_of_mem (hfst ▸ hnodup) hx']
    rcases slots[x'.1]? with _ | _ | t <;> rfl
  · rw [getElem?_setHeights_of_notMem (hfst ▸ hi), getElem?_setHeights_of_notMem hi,
      getElem?_setHeights_of_notMem (hfst ▸ hi)]

theorem flatten_setHeights (g : Grid) (l : List (ℕ × Single)) :
    flatten { g with slots := setHeights g.slots l } = g.flatten :=
  congrArg (fun slots => ({ g with slots := slots } : Grid))
    (flatSlots_foldl_displace (β := ℕ × Single) (fun x t => { t with height := x.2 }) l g.slots)

/-- Heights that are set leave the lateral offsets as they are. -/
theorem lateral_setHeights (l : List (ℕ × Single)) (slots : Array (Option Tile)) (i : ℕ) :
    (setHeights slots l)[i]?.join.map (·.lateral) = slots[i]?.join.map (·.lateral) := by
  induction l generalizing slots with
  | nil => rfl
  | cons x l ih =>
    have hcons : setHeights slots (x :: l) =
        setHeights (mapSlot (fun t => some { t with height := x.2 }) x.1 slots) l := rfl
    rw [hcons, ih, mapSlot, Array.getElem?_modify]
    split_ifs
    · rcases slots[i]? with _ | _ | t <;> rfl
    · rfl

/-! ### The slots of the columns -/

/-- The slots that hold a tile, column by column. -/
def slotsByColumn (g : Grid) : List ℕ :=
  (List.range g.cols.toNat).flatMap g.columnSlots

theorem mem_slotsByColumn :
    i ∈ g.slotsByColumn ↔ i < g.rows.toNat * g.cols.toNat ∧ (g.slotTile? i).isSome := by
  simp only [slotsByColumn, columnSlots, List.mem_flatMap, List.mem_filter, List.mem_map,
    List.mem_range]
  constructor
  · rintro ⟨c, hc, ⟨row, hrow, rfl⟩, hsome⟩
    have hle := Nat.mul_le_mul_right g.cols.toNat (Nat.succ_le_of_lt hrow)
    rw [Nat.succ_mul] at hle
    exact ⟨by omega, hsome⟩
  · rintro ⟨hi, hsome⟩
    have hcols : 0 < g.cols.toNat := Nat.pos_of_ne_zero fun h => by simp [h] at hi
    exact ⟨i % g.cols.toNat, Nat.mod_lt i hcols,
      ⟨i / g.cols.toNat, Nat.div_lt_of_lt_mul (Nat.mul_comm .. ▸ hi), Nat.div_add_mod' ..⟩, hsome⟩

theorem nodup_columnSlots (hc : c < g.cols.toNat) : (g.columnSlots c).Nodup := by
  refine (List.nodup_range.map fun row row' h => ?_).filter _
  exact Nat.eq_of_mul_eq_mul_right (Nat.zero_lt_of_lt hc) (Nat.add_right_cancel h)

theorem nodup_slotsByColumn (g : Grid) : g.slotsByColumn.Nodup := by
  refine List.nodup_flatMap.mpr ⟨fun c hc => nodup_columnSlots (List.mem_range.mp hc), ?_⟩
  refine List.nodup_range.imp_of_mem fun hc hc' hne i hi hi' => hne ?_
  rw [← mod_of_mem_columnSlots (List.mem_range.mp hc) hi,
    mod_of_mem_columnSlots (List.mem_range.mp hc') hi']

/-- Every tile lies in one of the columns. -/
theorem Laid.length_slotsByColumn (h : g.Laid) : g.slotsByColumn.length = g.tileCount := by
  have hperm : g.slotsByColumn.Perm (g.fullSpan.slots.filter fun i => (g.slotTile? i).isSome) := by
    have hspan : g.fullSpan.slots.Nodup := List.nodup_range'
    refine (List.perm_ext_iff_of_nodup g.nodup_slotsByColumn (hspan.filter _)).mpr fun i => ?_
    rw [mem_slotsByColumn, List.mem_filter, mem_slots, fullSpan, h, Nat.zero_add,
      and_iff_right (Nat.zero_le i)]
  rw [hperm.length_eq, ← countTiles_fullSpan, countTiles, List.countP_eq_length_filter]

/-! ### Smoothed grids -/

theorem fst_smoothedColumn (g : Grid) (passes c : ℕ) :
    (g.smoothedColumn passes c).map Prod.fst = g.columnSlots c := by
  have hlength := g.length_smoothedColumn passes c
  rw [smoothedColumn, List.length_zip, min_eq_left_iff] at hlength
  exact List.map_fst_zip hlength

theorem snd_smoothedColumn (g : Grid) (passes c : ℕ) :
    (g.smoothedColumn passes c).map Prod.snd =
      smoothTimes passes (g.slotHeights (g.columnSlots c)) := by
  refine List.map_snd_zip ?_
  rw [length_smoothTimes]
  exact List.length_filterMap_le ..

/-- The smoothed heights of all columns. -/
def smoothedHeights (g : Grid) (passes : ℕ) : List (ℕ × Single) :=
  (List.range g.cols.toNat).flatMap (g.smoothedColumn passes)

theorem fst_smoothedHeights (g : Grid) (passes : ℕ) :
    (g.smoothedHeights passes).map Prod.fst = g.slotsByColumn := by
  rw [smoothedHeights, List.map_flatMap]
  exact List.flatMap_congr fun c _ => g.fst_smoothedColumn passes c

/-- The grid with smoothed heights. -/
def smoothed (g : Grid) (passes : ℕ) : Grid :=
  { g with slots := setHeights g.slots (g.smoothedHeights passes) }

theorem Laid.smoothColumns_eq (h : g.Laid) (passes : UInt32) :
    g.smoothColumns passes = (g.smoothed passes.toNat, g.tileCount) := by
  rw [← h.length_slotsByColumn, ← g.fst_smoothedHeights passes.toNat, List.length_map]
  rfl

theorem tileCount_smoothed (g : Grid) (passes : ℕ) :
    (g.smoothed passes).tileCount = g.tileCount := by
  rw [← tileCount_flatten, smoothed, flatten_setHeights, tileCount_flatten]

theorem columnSlots_smoothed (g : Grid) (passes c : ℕ) :
    (g.smoothed passes).columnSlots c = g.columnSlots c := by
  rw [← columnSlots_flatten, smoothed, flatten_setHeights, columnSlots_flatten]

/-- The heights in a column are smoothed in the order of their rows. -/
theorem slotHeights_smoothed (hc : c < g.cols.toNat) (passes : ℕ) :
    (g.smoothed passes).slotHeights (g.columnSlots c) =
      smoothTimes passes (g.slotHeights (g.columnSlots c)) := by
  have hset : ∀ x ∈ g.smoothedColumn passes c,
      ((g.smoothed passes).slotTile? x.1).map (·.height) = some x.2 := by
    intro x hx
    have hmem : x ∈ g.smoothedHeights passes := List.mem_flatMap.mpr ⟨c, List.mem_range.mpr hc, hx⟩
    have hslot : x.1 ∈ g.columnSlots c := g.fst_smoothedColumn passes c ▸ List.mem_map_of_mem hx
    have htile : (g.slotTile? x.1).isSome := (List.mem_filter.mp hslot).2
    have hnodup : ((g.smoothedHeights passes).map Prod.fst).Nodup :=
      g.fst_smoothedHeights passes ▸ g.nodup_slotsByColumn
    rw [slotTile?, smoothed, getElem?_setHeights_of_mem hnodup hmem]
    rw [slotTile?] at htile
    rcases hget : g.slots[x.1]? with _ | _ | t
    · rw [hget] at htile
      cases htile
    · rw [hget] at htile
      cases htile
    · rfl
  rw [← snd_smoothedColumn, ← g.fst_smoothedColumn passes c, slotHeights, List.filterMap_map,
    ← List.filterMap_eq_map]
  exact List.filterMap_congr hset

/-- Each further pass goes on where the passes before ended. -/
theorem smoothed_smoothed (g : Grid) (p q : ℕ) :
    (g.smoothed p).smoothed q = g.smoothed (p + q) := by
  have hcolumn : ∀ c ∈ List.range g.cols.toNat,
      (g.smoothed p).smoothedColumn q c = g.smoothedColumn (p + q) c := by
    intro c hc
    have hzip (g : Grid) (passes : ℕ) : g.smoothedColumn passes c =
        (g.columnSlots c).zip (smoothTimes passes (g.slotHeights (g.columnSlots c))) := rfl
    rw [hzip, columnSlots_smoothed, slotHeights_smoothed (List.mem_range.mp hc),
      smoothTimes_smoothTimes, ← hzip]
  have hheights : (g.smoothed p).smoothedHeights q = g.smoothedHeights (p + q) :=
    List.flatMap_congr hcolumn
  have hfst : (g.smoothedHeights p).map Prod.fst = (g.smoothedHeights (p + q)).map Prod.fst := by
    rw [fst_smoothedHeights, fst_smoothedHeights]
  rw [smoothed, hheights, smoothed, setHeights_setHeights hfst
    (g.fst_smoothedHeights p ▸ g.nodup_slotsByColumn), smoothed]

/-! ### Heights by rows and columns -/

/-- The heights of the tiles of a column, row by row. -/
def heights (g : Grid) (col : UInt32) : List Single :=
  (words 0 g.rows.toNat).filterMap fun row => (g.tile? row col).map (·.height)

theorem heights_of_lt (hcol : col < g.cols) :
    g.heights col = g.slotHeights (g.columnSlots col.toNat) := by
  rw [heights, slotHeights, columnSlots_toNat, List.filterMap_filter, List.filterMap_map]
  refine List.filterMap_congr fun row hrow => ?_
  rw [tile?, if_pos (inBounds_iff.mpr ⟨mem_words_zero.mp hrow, hcol⟩), Function.comp_apply]
  cases g.slotTile? (g.index row col) <;> rfl

theorem heights_of_le (hcol : ¬ col < g.cols) : g.heights col = [] := by
  refine List.filterMap_eq_nil_iff.mpr fun row _ => ?_
  rw [tile?, if_neg fun hin => hcol (inBounds_iff.mp hin).2, Option.map_none]

/-- The new heights of a column come from the heights of the tiles in that column. -/
theorem heights_smoothed (g : Grid) (passes : ℕ) (col : UInt32) :
    (g.smoothed passes).heights col = smoothTimes passes (g.heights col) := by
  by_cases hcol : col < g.cols
  · have hcol' : col < (g.smoothed passes).cols := hcol
    rw [heights_of_lt hcol', columnSlots_smoothed,
      slotHeights_smoothed (UInt32.lt_iff_toNat_lt.mp hcol), heights_of_lt hcol]
  · have hcol' : ¬ col < (g.smoothed passes).cols := hcol
    rw [heights_of_le hcol', heights_of_le hcol]
    exact (List.length_eq_zero_iff.mp (length_smoothTimes passes [])).symm

theorem lateral_smoothed (g : Grid) (passes : ℕ) (row col : UInt32) :
    ((g.smoothed passes).tile? row col).map (·.lateral) = (g.tile? row col).map (·.lateral) := by
  have htile : (g.smoothed passes).tile? row col =
      if g.inBounds row col then (g.smoothed passes).slotTile? (g.index row col) else none := rfl
  rw [htile, tile?]
  split_ifs
  · exact lateral_setHeights ..
  · rfl

end Grid

/-! ### Smoothing -/

section

variable (params : Params)

theorem Op.check_smoothColumns {passes : UInt32} (h : 1 ≤ passes) :
    (Op.smoothColumns passes).check params = .ok () := by
  have hne : passes ≠ 0 := by
    rintro rfl
    exact absurd h (by decide)
  rw [check, if_neg hne]

/-- On a grid that is laid out, smoothing counts the tiles and gives the smoothed grid. -/
theorem Track.perform_smoothColumns_eq {g : Grid} (hg : g.Laid) (stream : Stream) {passes : UInt32}
    (h : 1 ≤ passes) :
    perform params (.smoothColumns passes) ⟨some g, stream⟩ =
      .ok (⟨some (g.smoothed passes.toNat), stream⟩, g.tileCount) := by
  rw [perform_of_check (Op.check_smoothColumns params h)]
  refine congrArg Except.ok (act_of_grid_some rfl ?_)
  exact congrArg (Grid.act.keep stream) (hg.smoothColumns_eq passes)

/-- Smoothing a grid that has been built. Every call counts the tiles. Holes, lateral offsets and
all else but the heights stay as they are, and the new heights of a column come from the heights of
the tiles of that column, row by row. Passes can be made in two calls or in one: the grid is the
same. Read over exact numbers, the passes keep the sum of the heights of a column, and each new
height lies between two of the old ones. -/
theorem Track.perform_smoothColumns {g : Grid} (hg : g.Laid) (stream : Stream) :
    (∀ passes : UInt32, 1 ≤ passes → ∃ g' : Grid,
      perform params (.smoothColumns passes) ⟨some g, stream⟩ =
        .ok (⟨some g', stream⟩, g.tileCount) ∧
      g' = { g with slots := g'.slots } ∧ g'.Laid ∧
      (∀ row col, (g'.tile? row col).map (·.lateral) = (g.tile? row col).map (·.lateral)) ∧
      ∀ col, g'.heights col = Grid.smoothTimes passes.toNat (g.heights col)) ∧
    (∀ p q : UInt32, 1 ≤ p → 1 ≤ q → p.toNat + q.toNat < UInt32.size → ∃ g' g'' : Grid,
      perform params (.smoothColumns p) ⟨some g, stream⟩ =
        .ok (⟨some g', stream⟩, g.tileCount) ∧
      perform params (.smoothColumns q) ⟨some g', stream⟩ =
        .ok (⟨some g'', stream⟩, g'.tileCount) ∧
      perform params (.smoothColumns (p + q)) ⟨some g, stream⟩ =
        .ok (⟨some g'', stream⟩, g.tileCount) ∧
      g'.tileCount = g.tileCount) ∧
    ∀ (passes : ℕ) (l : List ℚ), (passes.repeat Grid.smooth l).sum = l.sum ∧
      ∀ x ∈ passes.repeat Grid.smooth l, ∃ a ∈ l, ∃ b ∈ l, a ≤ x ∧ x ≤ b := by
  have hlaid (passes : ℕ) : (g.smoothed passes).Laid := (Grid.size_setHeights ..).trans hg
  refine ⟨fun passes h => ?_, fun p q hp hq hsum => ?_, fun passes l => ?_⟩
  · exact ⟨g.smoothed passes.toNat, perform_smoothColumns_eq params hg stream h, rfl, hlaid _,
      g.lateral_smoothed _, g.heights_smoothed _⟩
  · have htoNat : (p + q).toNat = p.toNat + q.toNat := by
      rw [UInt32.toNat_add, Nat.mod_eq_of_lt hsum]
    have hpq : 1 ≤ p + q := by
      rw [UInt32.le_iff_toNat_le, htoNat]
      exact (UInt32.le_iff_toNat_le.mp hp).trans (Nat.le_add_right ..)
    have hboth := perform_smoothColumns_eq params hg stream hpq
    rw [htoNat, ← Grid.smoothed_smoothed] at hboth
    exact ⟨_, _, perform_smoothColumns_eq params hg stream hp,
      perform_smoothColumns_eq params (hlaid _) stream hq, hboth, g.tileCount_smoothed _⟩
  · exact ⟨Grid.sum_repeat_smooth passes l,
      fun x hx => Grid.exists_le_of_mem_repeat_smooth passes hx⟩

/-- Two passes and three passes on a grid that has lost a tile. -/
theorem Track.perform_smoothColumns_hole :
    let g : Grid := ((Grid.full 3 2).removeTile 1 0).1
    ∃ g' g'' : Grid,
      perform {} (.smoothColumns 2) ⟨some g, Stream.ofSeed 7⟩ =
        .ok (⟨some g', Stream.ofSeed 7⟩, 5) ∧
      perform {} (.smoothColumns 3) ⟨some g', Stream.ofSeed 7⟩ =
        .ok (⟨some g'', Stream.ofSeed 7⟩, 5) ∧
      perform {} (.smoothColumns 5) ⟨some g, Stream.ofSeed 7⟩ =
        .ok (⟨some g'', Stream.ofSeed 7⟩, 5) := by
  intro g
  have hg : g.Laid := by unfold Grid.Laid; decide
  have hcount : g.tileCount = 5 := by decide
  obtain ⟨-, htwice, -⟩ := perform_smoothColumns {} hg (Stream.ofSeed 7)
  obtain ⟨g', g'', hfirst, hsecond, hboth, hkeep⟩ :=
    htwice 2 3 (by decide) (by decide) (by decide)
  rw [hcount] at hfirst hboth hkeep
  rw [hkeep] at hsecond
  exact ⟨g', g'', hfirst, hsecond, hboth⟩

end

end Raceway
