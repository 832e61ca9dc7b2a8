import Mathlib
import Raceway.Proofs.Grid.Reshaping
/-!
# Counting tiles

Every removal counts each tile that it takes away, and counts it once, also where a row is named
twice or lies outside of the grid. All other operations on a grid that is there leave the number of
tiles as it is, and none of them puts a tile where there was none.

## Main definitions

* `Raceway.Op.removes`: the operation removes tiles.
* `Raceway.Grid.Within`: the tiles of a grid are among those of another one.

## Main results

* `Raceway.Grid.tileCount_act`: the tiles that are left and those that were removed.
* `Raceway.Grid.within_act`: an operation puts no tile where there was none.
-/

namespace Raceway

open Raceway.Random

/-- The operation removes tiles. -/
def Op.removes {α : Type} : Op α → Bool
  | deleteRows .. | deleteTiles .. | randomHoles .. | jumpGaps .. => true
  | _ => false

namespace Grid

variable {g : Grid} {i : ℕ} {slots : Array (Option Tile)}

/-! ### The number of tiles -/

/-- The number of tiles in some slots. -/
def held (slots : Array (Option Tile)) : ℕ :=
  slots.countP Option.isSome

theorem mapSlot_eq_set (f : Tile → Option Tile) (h : i < slots.size) :
    mapSlot f i slots = slots.set i (slots[i].bind f) := by
  refine Array.ext_getElem? fun j => ?_
  rw [mapSlot, Array.getElem?_modify, Array.getElem?_set]
  split_ifs with hij
  · subst hij
    rw [Array.getElem?_eq_getElem h, Option.map_some]
  · rfl

/-- A tile that a removal finds is one less. -/
theorem held_removeSlot (p : Bool) (i : ℕ) (slots : Array (Option Tile)) :
    held (mapSlot (fun t => if p then none else some t) i slots) +
      (if (slots[i]?.join).isSome && p then 1 else 0) = held slots := by
  cases p with
  | false =>
    have hkeep : (fun t => if false = true then none else some t) = (some : Tile → Option Tile) :=
      funext fun t => if_neg Bool.false_ne_true
    rw [hkeep, mapSlot_some, Bool.and_false, if_neg Bool.false_ne_true, Nat.add_zero]
  | true =>
    by_cases h : i < slots.size
    · rw [mapSlot_eq_set _ h, held, Array.countP_set h, Array.getElem?_eq_getElem h, held]
      cases hslot : slots[i] with
      | none => simp
      | some t =>
        have hpos : 0 < slots.countP Option.isSome :=
          Array.countP_pos_iff.mpr ⟨slots[i], Array.getElem_mem h, by rw [hslot]; rfl⟩
        simp only [Option.isSome_some, Option.join_some, Option.bind_some, Option.isSome_none,
          if_true, Bool.and_true, Bool.false_eq_true, if_false]
        omega
    · have hnone : slots[i]? = none := Array.getElem?_eq_none (Nat.le_of_not_lt h)
      have hsame : mapSlot (fun _ => none) i slots = slots := by
        refine Array.ext_getElem? fun j => ?_
        rw [mapSlot, Array.getElem?_modify]
        split_ifs with hij
        · rw [← hij, hnone, Option.map_none]
        · rfl
      simp [hsame, hnone]

/-- Removals from different slots count the tiles that they take away. -/
theorem held_foldl_removeSlot {is : List ℕ} (hnodup : is.Nodup) (p : ℕ → Bool)
    (slots : Array (Option Tile)) :
    held (is.foldl (fun slots i => mapSlot (fun t => if p i then none else some t) i slots) slots) +
      (is.filter fun i => (slots[i]?.join).isSome && p i).length = held slots := by
  induction is generalizing slots with
  | nil => rfl
  | cons i is ih =>
    obtain ⟨hi, his⟩ := List.nodup_cons.mp hnodup
    have hfirst := held_removeSlot (p i) i slots
    have hrest := ih his (mapSlot (fun t => if p i then none else some t) i slots)
    -- The slots that are still to come have not been touched yet.
    have hfilter : is.filter (fun j => ((mapSlot (fun t => if p i then none else some t) i
        slots)[j]?.join).isSome && p j) = is.filter fun j => (slots[j]?.join).isSome && p j := by
      refine List.filter_congr fun j hj => ?_
      have hij : i ≠ j := by
        rintro rfl
        exact hi hj
      rw [mapSlot, Array.getElem?_modify, if_neg hij]
    rw [hfilter] at hrest
    rw [List.foldl_cons, List.filter_cons]
    cases hp : (slots[i]?.join).isSome && p i with
    | false =>
      rw [hp, if_neg Bool.false_ne_true] at hfirst
      rw [if_neg Bool.false_ne_true]
      omega
    | true =>
      rw [hp, if_pos rfl] at hfirst
      rw [if_pos rfl, List.length_cons]
      omega

/-- A removal counts the tiles that it takes away. -/
theorem tileCount_removeWhere (g : Grid) (span : Span) (p : ℕ → Bool) :
    (g.removeWhere span p).1.tileCount + (g.removeWhere span p).2 = g.tileCount :=
  held_foldl_removeSlot List.nodup_range' p g.slots

/-- A fold keeps what each of its steps keeps. -/
theorem foldl_eq_of_step {σ β : Type} {f : σ → β → σ} {m : σ → ℕ} (h : ∀ s b, m (f s b) = m s)
    (l : List β) (s : σ) : m (l.foldl f s) = m s := by
  induction l generalizing s with
  | nil => rfl
  | cons b l ih => rw [List.foldl_cons, ih, h]

theorem held_drawHole (g : Grid) (threshold : Float) (s : Holes) (i : ℕ) :
    held (g.drawHole threshold s i).slots + (g.drawHole threshold s i).removed =
      held s.slots + s.removed := by
  have hremove := held_removeSlot true i s.slots
  rw [drawHole]
  split_ifs with hheld
  · rcases s.stream.unit with ⟨u, rest⟩
    simp only [Bool.and_eq_true] at hheld
    simp only [hheld.1, Bool.and_true, if_true] at hremove
    dsimp only
    split_ifs
    · dsimp only
      omega
    · rfl
  · rfl

theorem tileCount_randomHoles (g : Grid) (percent : Float) (stream : Stream) :
    (g.randomHoles percent stream).1.tileCount + (g.randomHoles percent stream).2.2 =
      g.tileCount :=
  foldl_eq_of_step (m := fun s : Holes => held s.slots + s.removed)
    (held_drawHole g (percent / 100)) _ _

theorem tileCount_cutGap (s : Grid × ℕ) (row : UInt32) :
    (cutGap s row).1.tileCount + (cutGap s row).2 = s.1.tileCount + s.2 := by
  have hremove := tileCount_removeWhere s.1 (s.1.rowSpan row) fun _ => true
  rw [cutGap]
  split_ifs
  · rw [← hremove, removeRow]
    dsimp only
    omega
  · rfl

theorem tileCount_jumpGaps (α : Type) [Scalar α] (g : Grid) (n : UInt32) :
    (g.jumpGaps α n).1.tileCount + (g.jumpGaps α n).2 = g.tileCount :=
  foldl_eq_of_step (m := fun s : Grid × ℕ => s.1.tileCount + s.2) tileCount_cutGap _ _

@[simp] theorem tileCount_full (rows cols : UInt32) :
    (full rows cols).tileCount = rows.toNat * cols.toNat := by
  rw [tileCount, full, Array.countP_replicate]
  rfl

/-- Of the tiles of a grid, an operation leaves those that it does not report as removed. -/
theorem tileCount_act (params : Params) (op : Op Float) (g : Grid) (stream : Stream) :
    (g.act params op stream).1.tileCount +
      (if op.removes then (g.act params op stream).2.2 else 0) = g.tileCount := by
  cases hop : op.reshapes with
  | true =>
    have hremoves : op.removes = false := by
      cases op <;> first | rfl | exact Bool.noConfusion hop
    rw [hremoves, if_neg Bool.false_ne_true, ← tileCount_flatten, flatten_act_of_reshapes params hop,
      tileCount_flatten, Nat.add_zero]
  | false =>
    cases op with
    | deleteRows a b => exact tileCount_removeWhere g (g.rowsSpan a b) fun _ => true
    | deleteTiles cols row => exact tileCount_removeWhere g (g.rowSpan row) _
    | randomHoles percent => exact tileCount_randomHoles g percent stream
    | jumpGaps n => exact tileCount_jumpGaps Float g n
    | curve a b side degrees => exact Bool.noConfusion hop
    | sBend a b degrees gain ratio => exact Bool.noConfusion hop
    | slopes low high segment => exact Bool.noConfusion hop
    | smoothColumns passes => exact Bool.noConfusion hop
    | _ => rfl

/-! ### Places without a tile -/

/-- The grid has the same rows and columns as another one, and all of its tiles are also there. -/
structure Within (g g' : Grid) : Prop where
  rows : g.rows = g'.rows
  cols : g.cols = g'.cols
  isSome_slotTile? (i : ℕ) : (g.slotTile? i).isSome = true → (g'.slotTile? i).isSome = true

theorem Within.refl (g : Grid) : g.Within g :=
  ⟨rfl, rfl, fun _ => id⟩

theorem Within.trans {g g' g'' : Grid} (h : g.Within g') (h' : g'.Within g'') : g.Within g'' where
  rows := h.rows.trans h'.rows
  cols := h.cols.trans h'.cols
  isSome_slotTile? i := h'.isSome_slotTile? i ∘ h.isSome_slotTile? i

theorem Within.tile?_eq_none {g g' : Grid} (h : g.Within g') {row col : UInt32}
    (hnone : g'.tile? row col = none) : g.tile? row col = none := by
  have hindex : g.index row col = g'.index row col := by rw [index, index, h.cols]
  rw [tile?, inBounds, ← h.rows, ← h.cols, ← hindex] at hnone
  rw [tile?, inBounds]
  split_ifs at hnone ⊢
  · rw [← Option.not_isSome_iff_eq_none] at hnone ⊢
    exact hnone ∘ h.isSome_slotTile? _
  · rfl

/-- Grids that are the same once all tiles are in their places have the same tiles. -/
theorem within_of_flatten_eq {g g' : Grid} (h : g.flatten = g'.flatten) : g.Within g' where
  rows := (congrArg Grid.rows h :)
  cols := (congrArg Grid.cols h :)
  isSome_slotTile? i hi := by rwa [← isSome_slotTile?_flatten, ← h, isSome_slotTile?_flatten]

/-- A slot that is changed had a tile before if it has one afterwards. -/
theorem isSome_of_isSome_mapSlot {f : Tile → Option Tile} {j : ℕ}
    (h : ((mapSlot f j slots)[i]?.join).isSome = true) : (slots[i]?.join).isSome = true := by
  rw [mapSlot, Array.getElem?_modify] at h
  split_ifs at h
  · rcases hslot : slots[i]? with _ | _ | t
    · simp [hslot] at h
    · simp [hslot] at h
    · rfl
  · exact h

theorem isSome_of_isSome_foldl_mapSlot {β : Type} {slot : β → ℕ} {f : β → Tile → Option Tile}
    {l : List β} (h : (((l.foldl (fun slots b => mapSlot (f b) (slot b) slots)
      slots)[i]?).join).isSome = true) : (slots[i]?.join).isSome = true := by
  induction l generalizing slots with
  | nil => exact h
  | cons b l ih => exact isSome_of_isSome_mapSlot (ih h)

theorem within_removeWhere (g : Grid) (span : Span) (p : ℕ → Bool) :
    (g.removeWhere span p).1.Within g :=
  ⟨rfl, rfl, fun _ => isSome_of_isSome_foldl_mapSlot⟩

theorem isSome_of_isSome_drawHole {threshold : Float} {is : List ℕ} {s : Holes}
    (h : ((is.foldl (g.drawHole threshold) s).slots[i]?.join).isSome = true) :
    (s.slots[i]?.join).isSome = true := by
  induction is generalizing s with
  | nil => exact h
  | cons j is ih =>
    have hstep := ih h
    rw [drawHole] at hstep
    split_ifs at hstep
    · rcases s.stream.unit with ⟨u, rest⟩
      dsimp only at hstep
      split_ifs at hstep
      · exact isSome_of_isSome_mapSlot hstep
      · exact hstep
    · exact hstep

theorem within_foldl_cutGap (rows : List UInt32) (s : Grid × ℕ) :
    (rows.foldl cutGap s).1.Within s.1 := by
  induction rows generalizing s with
  | nil => exact .refl _
  | cons row rows ih =>
    refine (ih (cutGap s row)).trans ?_
    rw [cutGap]
    split_ifs
    · exact within_removeWhere ..
    · exact .refl _

/-- An operation on a grid puts no tile where there was none. -/
theorem within_act (params : Params) (op : Op Float) (g : Grid) (stream : Stream) :
    (g.act params op stream).1.Within g := by
  cases hop : op.reshapes with
  | true => exact within_of_flatten_eq (flatten_act_of_reshapes params hop g stream)
  | false =>
    cases op with
    | deleteRows a b => exact within_removeWhere ..
    | deleteTiles cols row => exact within_removeWhere ..
    | randomHoles percent => exact ⟨rfl, rfl, fun _ => isSome_of_isSome_drawHole⟩
    | jumpGaps n => exact within_foldl_cutGap _ (g, 0)
    | curve a b side degrees => exact Bool.noConfusion hop
    | sBend a b degrees gain ratio => exact Bool.noConfusion hop
    | slopes low high segment => exact Bool.noConfusion hop
    | smoothColumns passes => exact Bool.noConfusion hop
    | _ => exact ⟨rfl, rfl, fun _ => id⟩

end Grid

end Raceway
