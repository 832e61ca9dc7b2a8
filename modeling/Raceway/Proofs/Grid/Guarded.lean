import Mathlib
import Raceway.Proofs.Grid.Slots
import Raceway.Proofs.Results
/-!
# Guarded removals

A guarded computation stops before it looks up a place behind the end of a sequence, cuts a range
out of a sequence that it does not lie in, subtracts a word from a smaller one, adds words whose sum
is no word, or needs a place that has no 64-bit number. The removals are written here row by row and
column by column, with each of these steps guarded. On a grid that is laid out no guard is ever met,
and they remove the same tiles as the removals by ranges of slots.

## Main definitions

* `Raceway.Misstep` and `Raceway.Guarded`: guarded computations.
* `Raceway.Guarded.tally`: a loop that counts.
* `Raceway.Grid.guardedTile?`, `Raceway.Grid.guardedChange`: looking up and changing a tile.
* `Raceway.Grid.Removes` and `Raceway.Grid.Draws`: what a guarded removal has to do.

## Main results

* `Raceway.Guarded.tally_rule`: what a loop keeps from round to round holds at its end.
* `Raceway.Grid.removes_tally` and `Raceway.Grid.draws_tally`: removals one after the other.
* `Raceway.Grid.Laid.guardedRemoveRow_eq`, `Raceway.Grid.Laid.guardedDeleteRows_eq`,
  `Raceway.Grid.Laid.guardedDeleteTiles_eq`, `Raceway.Grid.Laid.guardedGaps_eq` and
  `Raceway.Grid.Laid.guardedHoles_eq`: the guarded removals meet no guard.
-/

namespace Raceway

open Raceway.Random

/-! ### Guards -/

/-- A step that must not be taken. -/
inductive Misstep where
  /-- A place behind the end of a sequence of the given size. -/
  | place (i size : ℕ)
  /-- A range that does not lie in a sequence of the given size. -/
  | range (start stop size : ℕ)
  /-- A word that is subtracted from a smaller one. -/
  | minus (a b : UInt32)
  /-- Two words whose sum is no word. -/
  | plus (a b : UInt32)
  /-- A number of more than 64 bits. -/
  | wide (n : ℕ)
deriving DecidableEq

/-- A computation that stops before a misstep. -/
abbrev Guarded := Except Misstep

namespace Guarded

variable {α β σ : Type}

/-- What stands at a place of a sequence. -/
def lookUp (i size : ℕ) : Option α → Guarded α
  | some a => return a
  | none => throw (.place i size)

/-- A range of a sequence. -/
def cut (start stop size : ℕ) : Guarded Unit :=
  if start ≤ stop ∧ stop ≤ size then return () else throw (.range start stop size)

/-- The difference of two words. -/
def minus (a b : UInt32) : Guarded UInt32 :=
  if b ≤ a then return a - b else throw (.minus a b)

/-- The sum of two words. -/
def plus (a b : UInt32) : Guarded UInt32 :=
  if a.toNat + b.toNat < 2 ^ 32 then return a + b else throw (.plus a b)

/-- A number of at most 64 bits. -/
def narrow (n : ℕ) : Guarded ℕ :=
  if n < 2 ^ 64 then return n else throw (.wide n)

theorem minus_eq {a b : UInt32} (h : b ≤ a) : minus a b = .ok (a - b) :=
  if_pos h

theorem narrow_eq {n : ℕ} (h : n < 2 ^ 64) : narrow n = .ok n :=
  if_pos h

/-- Go through a list and add up what is counted for its elements. -/
def tally (f : β → σ → Guarded (σ × ℕ)) : List β → σ → Guarded (σ × ℕ)
  | [], s => return (s, 0)
  | b :: l, s => do
    let (s, n) ← f b s
    let (s, m) ← tally f l s
    return (s, n + m)

theorem tally_cons_of_ok {f : β → σ → Guarded (σ × ℕ)} {b : β} {l : List β} {s s' s'' : σ}
    {n m : ℕ} (hf : f b s = .ok (s', n)) (hrest : tally f l s' = .ok (s'', m)) :
    tally f (b :: l) s = .ok (s'', n + m) := by
  rw [tally, hf, ok_bind]
  dsimp only
  rw [hrest]
  rfl

/-- What holds of the elements done, the state and the count at the start, and is kept by each
round, holds at the end. -/
theorem tally_rule {f : β → σ → Guarded (σ × ℕ)} {l : List β} {R : List β → σ → ℕ → Prop}
    (hstep : ∀ done b rest s n, l = done ++ b :: rest → R done s n →
      ∃ s' k, f b s = .ok (s', k) ∧ R (done ++ [b]) s' (n + k))
    {s : σ} (hstart : R [] s 0) : ∃ s' n, tally f l s = .ok (s', n) ∧ R l s' n := by
  have hrest (rest done : List β) (s : σ) (n : ℕ) (hl : l = done ++ rest) (h : R done s n) :
      ∃ s' k, tally f rest s = .ok (s', k) ∧ R l s' (n + k) := by
    induction rest generalizing done s n with
    | nil =>
      rw [List.append_nil] at hl
      exact ⟨s, 0, rfl, hl ▸ h⟩
    | cons b rest ih =>
      obtain ⟨s', k, hf, h'⟩ := hstep done b rest s n hl h
      rw [← List.singleton_append, ← List.append_assoc] at hl
      obtain ⟨s'', m, hrest, h''⟩ := ih _ _ _ hl h'
      exact ⟨s'', k + m, tally_cons_of_ok hf hrest, by rwa [← Nat.add_assoc]⟩
  obtain ⟨s', k, htally, h⟩ := hrest l [] s 0 rfl hstart
  exact ⟨s', k, htally, by rwa [Nat.zero_add] at h⟩

end Guarded

open Guarded

namespace Grid

variable {g : Grid} {row col : UInt32} {slots : Array (Option Tile)}

/-! ### Places -/

/-- Look up the tile at a row and a column. -/
def guardedTile? (g : Grid) (row col : UInt32) : Guarded (Option Tile) :=
  if g.inBounds row col then do
    let i ← narrow (g.index row col)
    lookUp i g.slots.size g.slots[i]?
  else return none

/-- Change the tile at a row and a column to another one or to none, and tell whether there was
one. -/
def guardedChange (f : Tile → Option Tile) (row col : UInt32) (g : Grid) :
    Guarded (Grid × Bool) :=
  if g.inBounds row col then do
    let i ← narrow (g.index row col)
    let slot ← lookUp i g.slots.size g.slots[i]?
    return ({ g with slots := g.slots.setIfInBounds i (slot.bind f) }, slot.isSome)
  else return (g, false)

/-- The slot of a row and a column, if they lie in the grid. -/
def slotsAt (g : Grid) (row col : UInt32) : List ℕ :=
  if g.inBounds row col then [g.index row col] else []

theorem slotsAt_of_lt (hrow : row < g.rows) (hcol : col < g.cols) :
    g.slotsAt row col = [g.index row col] :=
  if_pos (inBounds_iff.mpr ⟨hrow, hcol⟩)

theorem mem_slotsAt {i : ℕ} :
    i ∈ g.slotsAt row col ↔ (row < g.rows ∧ col < g.cols) ∧ i = g.index row col := by
  rw [slotsAt, ← inBounds_iff]
  split_ifs with h
  · rw [List.mem_singleton, and_iff_right h]
  · simp [h]

theorem Laid.lookUp_eq (h : g.Laid) (hin : g.inBounds row col = true) :
    lookUp (g.index row col) g.slots.size g.slots[g.index row col]? =
      .ok (g.slotTile? (g.index row col)) := by
  rw [slotTile?, Array.getElem?_eq_getElem (h.index_lt hin)]
  rfl

theorem Laid.guardedTile?_eq (h : g.Laid) (row col : UInt32) :
    g.guardedTile? row col = .ok (g.tile? row col) := by
  rw [guardedTile?, tile?]
  split_ifs with hin
  · rw [narrow_eq (index_lt_two_pow ..), ok_bind, h.lookUp_eq hin]
  · rfl

theorem Laid.guardedChange_eq (h : g.Laid) (f : Tile → Option Tile) (row col : UInt32) :
    guardedChange f row col g =
      .ok ({ g with slots := (g.slotsAt row col).foldl (fun slots i => mapSlot f i slots) g.slots },
        (g.tile? row col).isSome) := by
  rw [guardedChange, tile?, slotsAt]
  split_ifs with hin
  · have hlt := h.index_lt hin
    rw [narrow_eq (index_lt_two_pow ..), ok_bind, h.lookUp_eq hin, ok_bind, List.foldl_cons,
      List.foldl_nil, mapSlot_eq_set f hlt, Array.setIfInBounds, dif_pos hlt, slotTile?,
      Array.getElem?_eq_getElem hlt]
    rfl
  · rfl

/-- The slots of a row, place by place. -/
theorem flatMap_slotsAt (g : Grid) (row : UInt32) :
    (words 0 g.cols.toNat).flatMap (g.slotsAt row) = (g.rowSpan row).slots := by
  by_cases hrow : row < g.rows
  · rw [slots_rowSpan hrow, List.map_eq_flatMap]
    refine List.flatMap_congr fun col hcol => ?_
    exact slotsAt_of_lt hrow (mem_words_zero.mp hcol)
  · rw [slots_rowSpan_of_le hrow]
    exact List.flatMap_eq_nil_iff.mpr fun col _ => if_neg fun hin => hrow (inBounds_iff.mp hin).1

/-! ### Removals -/

/-- A grid without the tiles in the given slots of another grid, of which there are `n`. -/
structure Removal (g : Grid) (is : List ℕ) (g' : Grid) (n : ℕ) : Prop where
  grid_eq : g' = { g with slots := removeSlots is g.slots }
  held_add : held (removeSlots is g.slots) + n = held g.slots

/-- The computation removes the tiles in the given slots and counts them. -/
def Removes (g : Grid) (is : List ℕ) (x : Guarded (Grid × ℕ)) : Prop :=
  ∃ g' n, x = .ok (g', n) ∧ g.Removal is g' n

theorem removal_nil (g : Grid) : g.Removal [] g 0 :=
  ⟨rfl, rfl⟩

theorem Removal.append {g' g'' : Grid} {is js : List ℕ} {n k : ℕ} (h : g.Removal is g' n)
    (h' : g'.Removal js g'' k) : g.Removal (is ++ js) g'' (n + k) := by
  obtain ⟨rfl, hheld⟩ := h
  obtain ⟨rfl, hheld'⟩ := h'
  refine ⟨by rw [removeSlots_append], ?_⟩
  rw [removeSlots_append]
  dsimp only at hheld'
  omega

theorem Laid.removeSlots (h : g.Laid) (is : List ℕ) :
    Laid { g with slots := removeSlots is g.slots } :=
  (size_foldl_changes id _ is g.slots).trans h

/-- Removals one after the other remove what all of them remove. -/
theorem removes_tally {β : Type} {f : β → Grid → Guarded (Grid × ℕ)} {is : β → List ℕ}
    {l : List β} (hg : g.Laid)
    (h : ∀ b ∈ l, ∀ slots : Array (Option Tile), Laid { g with slots := slots } →
      Removes { g with slots := slots } (is b) (f b { g with slots := slots })) :
    g.Removes (l.flatMap is) (tally f l g) := by
  refine tally_rule (R := fun done => g.Removal (done.flatMap is)) ?_ (removal_nil g)
  rintro done b rest g' n rfl hdone
  obtain ⟨g'', k, hf, hround⟩ : g'.Removes (is b) (f b g') := by
    rw [hdone.grid_eq]
    exact h b (List.mem_append_right _ List.mem_cons_self) _ (hg.removeSlots _)
  refine ⟨g'', k, hf, ?_⟩
  rw [List.flatMap_append, List.flatMap_singleton]
  exact hdone.append hround

/-- A guarded removal that visits the right slots is the removal by a test. -/
theorem Removes.eq_removeWhere {is : List ℕ} {x : Guarded (Grid × ℕ)} (h : g.Removes is x)
    {span : Span} {p : ℕ → Bool} (hmem : ∀ i, i ∈ is ↔ i ∈ span.slots ∧ p i = true) :
    x = .ok (g.removeWhere span p) := by
  obtain ⟨g', n, rfl, rfl, hheld⟩ := h
  have hfst : { g with slots := removeSlots is g.slots } = (g.removeWhere span p).1 := by
    rw [removeWhere_fst, removeSlots_congr fun i => (hmem i).trans List.mem_filter.symm]
  have hcount := tileCount_removeWhere g span p
  rw [← hfst] at hcount
  have hn : n = (g.removeWhere span p).2 := Nat.add_left_cancel (hheld.trans hcount.symm)
  rw [hfst, hn]

/-- Remove the tile at a row and a column. -/
def guardedRemove (row col : UInt32) (g : Grid) : Guarded (Grid × ℕ) := do
  let (g, found) ← guardedChange (fun _ => none) row col g
  return (g, found.toNat)

/-- Remove the tiles of a row, column by column. -/
def guardedRemoveRow (row : UInt32) (g : Grid) : Guarded (Grid × ℕ) :=
  tally (guardedRemove row) (words 0 g.cols.toNat) g

theorem Laid.removes_guardedRemove (h : g.Laid) (row col : UInt32) :
    g.Removes (g.slotsAt row col) (guardedRemove row col g) := by
  refine ⟨_, (g.tile? row col).isSome.toNat, ?_, rfl, ?_⟩
  · rw [guardedRemove, h.guardedChange_eq]
    rfl
  · rw [slotsAt, tile?]
    split_ifs
    · have hheld := held_removeSlot true (g.index row col) g.slots
      rw [Bool.and_true] at hheld
      rw [slotTile?, ← hheld]
      cases (g.slots[g.index row col]?.join).isSome <;> rfl
    · rfl

theorem Laid.removes_guardedRemoveRow (h : g.Laid) (row : UInt32) :
    g.Removes (g.rowSpan row).slots (guardedRemoveRow row g) := by
  rw [← flatMap_slotsAt]
  exact removes_tally h fun col _ _ hlaid => hlaid.removes_guardedRemove row col

theorem Laid.guardedRemove_eq (h : g.Laid) (row col : UInt32) :
    guardedRemove row col g = .ok (g.removeTile row col) := by
  have hremoves := h.removes_guardedRemove row col
  rw [removeTile]
  rw [slotsAt] at hremoves
  split_ifs at hremoves ⊢ with hin
  · refine hremoves.eq_removeWhere fun i => ?_
    rw [Span.slots, List.range'_one, and_iff_left rfl]
  · rw [guardedRemove, guardedChange, if_neg hin]
    rfl

theorem Laid.guardedRemoveRow_eq (h : g.Laid) (row : UInt32) :
    guardedRemoveRow row g = .ok (g.removeRow row) :=
  (h.removes_guardedRemoveRow row).eq_removeWhere fun _ => (and_iff_left rfl).symm

/-! ### Rows and columns that are named -/

/-- The rows between two rows, both included, up to the last one of the grid. -/
def guardedRows (g : Grid) (a b : UInt32) : Guarded (List UInt32) :=
  if g.rows = 0 ∨ g.rows ≤ min a b then return []
  else do
    let last ← minus g.rows 1
    return words (min a b).toNat ((min (max a b) last).toNat + 1 - (min a b).toNat)

/-- Remove the tiles of the rows between two rows, row by row. -/
def guardedDeleteRows (a b : UInt32) (g : Grid) : Guarded (Grid × ℕ) := do
  tally guardedRemoveRow (← g.guardedRows a b) g

/-- Remove the tiles of a row whose columns, counted from one, are listed. -/
def guardedDeleteTiles (cols : List UInt32) (row : UInt32) (g : Grid) : Guarded (Grid × ℕ) :=
  tally (fun col g => do
    if 1 ≤ col then guardedRemove row (← minus col 1) g else return (g, 0)) cols g

/-- The rows between two rows are not before the first of these, and have the same slots. -/
theorem exists_guardedRows (g : Grid) (a b : UInt32) :
    ∃ rows, g.guardedRows a b = .ok rows ∧
      (rows.flatMap fun row => (g.rowSpan row).slots) = (g.rowsSpan a b).slots ∧
      ∀ row ∈ rows, min a b ≤ row ∧ row ≤ max a b := by
  rw [guardedRows]
  split_ifs with hnone
  · refine ⟨[], rfl, ?_, fun row hrow => absurd hrow List.not_mem_nil⟩
    rw [slots_rowsSpan_of_le, List.flatMap_nil]
    rw [UInt32.not_lt]
    rcases hnone with hzero | hle
    · rw [hzero]
      exact UInt32.zero_le
    · exact hle
  · have hlt : min a b < g.rows := UInt32.not_le.mp (not_or.mp hnone).2
    rw [minus_eq (one_le_of_lt hlt), ok_bind]
    refine ⟨_, rfl, (slots_rowsSpan hlt).symm, fun row hrow => ?_⟩
    have hmin := (min a b).toNat_lt
    have hmax := (max a b).toNat_lt
    rw [UInt32.toNat_min (max a b), mem_words (by rw [UInt32.size]; omega)] at hrow
    rw [UInt32.le_iff_toNat_le, UInt32.le_iff_toNat_le]
    omega

theorem Laid.guardedDeleteRows_eq (h : g.Laid) (a b : UInt32) :
    guardedDeleteRows a b g = .ok (g.deleteRows a b) := by
  obtain ⟨rows, hrows, hslots, -⟩ := exists_guardedRows g a b
  have hremoves : g.Removes (rows.flatMap fun row => (g.rowSpan row).slots)
      (guardedDeleteRows a b g) := by
    rw [guardedDeleteRows, hrows]
    exact removes_tally h fun row _ _ hlaid => hlaid.removes_guardedRemoveRow row
  exact hremoves.eq_removeWhere fun i => by rw [hslots, and_iff_left rfl]

/-- The slots of the listed columns are those of the row whose columns are listed. -/
theorem mem_flatMap_slotsAt {cols : List UInt32} {i : ℕ} :
    i ∈ (cols.flatMap fun col => if 1 ≤ col then g.slotsAt row (col - 1) else []) ↔
      i ∈ (g.rowSpan row).slots ∧
        (cols.any fun col => col.toNat == (g.colOf i).toNat + 1) = true := by
  rw [← flatMap_slotsAt, List.mem_flatMap, List.mem_flatMap, List.any_eq_true]
  constructor
  · rintro ⟨col, hmem, hi⟩
    split_ifs at hi with hone
    · obtain ⟨hin, rfl⟩ := mem_slotsAt.mp hi
      refine ⟨⟨col - 1, mem_words_zero.mpr hin.2, hi⟩, col, hmem, ?_⟩
      have hpos := UInt32.le_iff_toNat_le.mp hone
      rw [UInt32.toNat_one] at hpos
      rw [colOf_index hin.2, UInt32.toNat_sub_of_le _ _ hone, UInt32.toNat_one,
        Nat.sub_add_cancel hpos, beq_self_eq_true]
    · cases hi
  · rintro ⟨⟨col', hcol', hi⟩, col, hmem, heq⟩
    obtain ⟨hin, rfl⟩ := mem_slotsAt.mp hi
    rw [colOf_index hin.2, beq_iff_eq] at heq
    have hone : 1 ≤ col := one_le_of_lt (a := col') (UInt32.lt_iff_toNat_lt.mpr (by omega))
    have hcol : col - 1 = col' := by
      rw [← UInt32.toNat_inj, UInt32.toNat_sub_of_le _ _ hone, UInt32.toNat_one, heq,
        Nat.add_sub_cancel]
    exact ⟨col, hmem, by rwa [if_pos hone, hcol]⟩

theorem Laid.guardedDeleteTiles_eq (h : g.Laid) (cols : List UInt32) (row : UInt32) :
    guardedDeleteTiles cols row g = .ok (g.deleteTiles cols row) := by
  have hremoves : g.Removes
      (cols.flatMap fun col => if 1 ≤ col then g.slotsAt row (col - 1) else [])
      (guardedDeleteTiles cols row g) := by
    refine removes_tally h fun col _ slots hlaid => ?_
    split_ifs with hcol
    · rw [minus_eq hcol, ok_bind]
      exact hlaid.removes_guardedRemove row (col - 1)
    · exact ⟨_, 0, rfl, removal_nil _⟩
  exact hremoves.eq_removeWhere fun i => mem_flatMap_slotsAt

/-! ### Gaps -/

/-- Remove a number of evenly spaced rows outside the margins, row by row. -/
def guardedGaps (n : UInt32) (g : Grid) : Guarded (Grid × ℕ) :=
  tally (fun row g =>
    if row < g.rows && !g.isProtected row then guardedRemoveRow row g else return (g, 0))
    (gapRows Float g.rows n) g

theorem Laid.removeWhere (h : g.Laid) (span : Span) (p : ℕ → Bool) :
    (g.removeWhere span p).1.Laid :=
  (size_mapTiles ..).trans h

theorem Laid.guardedGaps_eq (h : g.Laid) (n : UInt32) :
    guardedGaps n g = .ok (g.jumpGaps Float n) := by
  obtain ⟨g', k, htally, -, heq⟩ : ∃ g' k, guardedGaps n g = .ok (g', k) ∧ g'.Laid ∧
      (gapRows Float g.rows n).foldl cutGap (g, 0) = (g', k) := by
    refine tally_rule (R := fun done g' k => g'.Laid ∧ done.foldl cutGap (g, 0) = (g', k)) ?_
      ⟨h, rfl⟩
    rintro done row rest g' k - ⟨hlaid, hfold⟩
    rw [List.foldl_append, hfold, List.foldl_cons, List.foldl_nil, cutGap]
    split_ifs with hrow
    · exact ⟨_, _, hlaid.guardedRemoveRow_eq row, hlaid.removeWhere _ _, rfl⟩
    · exact ⟨g', 0, rfl, hlaid, rfl⟩
  rw [htally, jumpGaps, heq]

/-! ### Random removals -/

/-- Draw for the tile at a row and a column, if there is one. -/
def guardedDraw (threshold : Float) (row col : UInt32) (s : Grid × Stream) :
    Guarded ((Grid × Stream) × ℕ) := do
  if (← s.1.guardedTile? row col).isNone then return (s, 0)
  let (u, stream) := s.2.unit
  if u < threshold then
    let (g, n) ← guardedRemove row col s.1
    return ((g, stream), n)
  else return ((s.1, stream), 0)

/-- Draw for the tiles of a row, unless it is protected. -/
def guardedDrawRow (threshold : Float) (row : UInt32) (s : Grid × Stream) :
    Guarded ((Grid × Stream) × ℕ) :=
  if s.1.isProtected row then return (s, 0)
  else tally (guardedDraw threshold row) (words 0 s.1.cols.toNat) s

/-- Remove each tile outside the margins with a chance given in percent, row by row. -/
def guardedHoles (percent : Float) (g : Grid) (stream : Stream) :
    Guarded (Grid × Stream × ℕ) := do
  let ((g, stream), n) ←
    tally (guardedDrawRow (percent / 100)) (words 0 g.rows.toNat) (g, stream)
  return (g, stream, n)

/-- The grid and the stream of a random removal. -/
def Holes.state (g : Grid) (s : Holes) : Grid × Stream :=
  ({ g with slots := s.slots }, s.stream)

/-- A grid and a stream after draws for the tiles in the given slots, which removed `k` of them. -/
structure Drawn (g : Grid) (threshold : Float) (is : List ℕ) (s : Holes) (x : Grid × Stream)
    (k : ℕ) : Prop where
  state_eq : x = (is.foldl (g.drawHole threshold) s).state g
  removed_eq : (is.foldl (g.drawHole threshold) s).removed = s.removed + k

/-- The computation draws for the tiles in the given slots and counts those that it removes. -/
def Draws (g : Grid) (threshold : Float) (is : List ℕ) (s : Holes)
    (y : Guarded ((Grid × Stream) × ℕ)) : Prop :=
  ∃ x k, y = .ok (x, k) ∧ g.Drawn threshold is s x k

theorem size_drawHole (g : Grid) (threshold : Float) (s : Holes) (i : ℕ) :
    (g.drawHole threshold s i).slots.size = s.slots.size := by
  rw [drawHole]
  split_ifs
  · rcases s.stream.unit with ⟨u, rest⟩
    dsimp only
    split_ifs
    · exact Array.size_modify
    · rfl
  · rfl

theorem size_foldl_drawHole (g : Grid) (threshold : Float) (is : List ℕ) (s : Holes) :
    (is.foldl (g.drawHole threshold) s).slots.size = s.slots.size :=
  foldl_eq_of_step (m := fun s : Holes => s.slots.size) (size_drawHole g threshold) is s

/-- Draws one after the other draw for all tiles of theirs. -/
theorem draws_tally {β : Type} {threshold : Float}
    {f : β → Grid × Stream → Guarded ((Grid × Stream) × ℕ)} {is : β → List ℕ} {l : List β}
    {s : Holes} (hs : (s.state g).1.Laid)
    (h : ∀ b ∈ l, ∀ s : Holes, (s.state g).1.Laid → g.Draws threshold (is b) s (f b (s.state g))) :
    g.Draws threshold (l.flatMap is) s (tally f l (s.state g)) := by
  refine tally_rule (R := fun done => g.Drawn threshold (done.flatMap is) s) ?_ ⟨rfl, rfl⟩
  rintro done b rest _ n rfl ⟨rfl, hremoved⟩
  obtain ⟨_, k, hf, rfl, hk⟩ := h b (List.mem_append_right _ List.mem_cons_self)
    ((done.flatMap is).foldl (g.drawHole threshold) s) ((size_foldl_drawHole ..).trans hs)
  refine ⟨_, k, hf, ?_, ?_⟩
  · rw [List.flatMap_append, List.flatMap_singleton, List.foldl_append]
  · rw [List.flatMap_append, List.flatMap_singleton, List.foldl_append, hk, hremoved, Nat.add_assoc]

theorem draws_guardedDraw {threshold : Float} {s : Holes} (hs : (s.state g).1.Laid)
    (hrow : row < g.rows) (hcol : col < g.cols) (hfree : g.isProtected row = false) :
    g.Draws threshold [g.index row col] s (guardedDraw threshold row col (s.state g)) := by
  have htile : (s.state g).1.tile? row col = s.slots[g.index row col]?.join :=
    if_pos (inBounds_iff.mpr ⟨hrow, hcol⟩)
  have hslots : (s.state g).1.slotsAt row col = [g.index row col] := slotsAt_of_lt hrow hcol
  have hremove : guardedRemove row col (s.state g).1 =
      .ok ({ g with slots := mapSlot (fun _ => none) (g.index row col) s.slots },
        (s.slots[g.index row col]?.join).isSome.toNat) := by
    rw [guardedRemove, hs.guardedChange_eq, htile, hslots]
    rfl
  have hstream : (s.state g).2 = s.stream := rfl
  have hstate (s' : Holes) (k : ℕ) (hdraw : g.drawHole threshold s (g.index row col) = s')
      (hremoved : s'.removed = s.removed + k) :
      g.Drawn threshold [g.index row col] s (s'.state g) k := by
    refine ⟨?_, ?_⟩ <;> rw [List.foldl_cons, List.foldl_nil, hdraw]
    exact hremoved
  rw [Draws, guardedDraw, hs.guardedTile?_eq, htile, hstream, hremove]
  rw [drawHole, rowOf_index hcol, hfree, Bool.not_false, Bool.and_true] at hstate
  cases hslot : (s.slots[g.index row col]?.join) with
  | none => exact ⟨_, 0, rfl, hstate s 0 (by rw [hslot]; rfl) rfl⟩
  | some t =>
    rw [hslot, Option.isSome_some, if_pos rfl] at hstate
    generalize s.stream.unit = draw at hstate ⊢
    obtain ⟨u, rest⟩ := draw
    by_cases hu : u < threshold
    · exact ⟨_, 1, if_pos hu, hstate ⟨mapSlot (fun _ => none) (g.index row col) s.slots, rest,
        s.removed + 1⟩ 1 (if_pos hu) rfl⟩
    · exact ⟨_, 0, if_neg hu, hstate ⟨s.slots, rest, s.removed⟩ 0 (if_neg hu) rfl⟩

theorem foldl_drawHole_of_protected (threshold : Float) (s : Holes)
    (h : g.isProtected row = true) :
    (g.rowSpan row).slots.foldl (g.drawHole threshold) s = s := by
  have hkeep : ∀ i ∈ (g.rowSpan row).slots, g.drawHole threshold s i = s := fun i hi => by
    rw [drawHole, rowOf_of_mem_rowSpan hi, h, Bool.not_true, Bool.and_false,
      if_neg Bool.false_ne_true]
  generalize (g.rowSpan row).slots = is at hkeep
  induction is with
  | nil => rfl
  | cons i is ih =>
    obtain ⟨hi, his⟩ := List.forall_mem_cons.mp hkeep
    rw [List.foldl_cons, hi, ih his]

theorem draws_guardedDrawRow {threshold : Float} {s : Holes} (hs : (s.state g).1.Laid)
    (hrow : row < g.rows) :
    g.Draws threshold (g.rowSpan row).slots s (guardedDrawRow threshold row (s.state g)) := by
  have hprotected : (s.state g).1.isProtected row = g.isProtected row := rfl
  rw [guardedDrawRow, hprotected]
  split_ifs with hfree
  · refine ⟨s.state g, 0, rfl, ?_, ?_⟩ <;> rw [foldl_drawHole_of_protected threshold s hfree]
    rfl
  · rw [slots_rowSpan hrow, List.map_eq_flatMap]
    exact draws_tally hs fun col hcol s hs =>
      draws_guardedDraw hs hrow (mem_words_zero.mp hcol) (Bool.eq_false_iff.mpr hfree)

theorem Laid.guardedHoles_eq (h : g.Laid) (percent : Float) (stream : Stream) :
    guardedHoles percent g stream = .ok (g.randomHoles percent stream) := by
  obtain ⟨_, k, htally, rfl, hremoved⟩ : g.Draws (percent / 100)
      ((words 0 g.rows.toNat).flatMap fun row => (g.rowSpan row).slots) ⟨g.slots, stream, 0⟩
      (tally (guardedDrawRow (percent / 100)) (words 0 g.rows.toNat) (g, stream)) :=
    draws_tally (s := ⟨g.slots, stream, 0⟩) h fun row hrow s hs =>
      draws_guardedDrawRow hs (mem_words_zero.mp hrow)
  rw [← slots_fullSpan h, fullSpan, Span.slots, ← List.range_eq_range'] at htally hremoved
  obtain rfl := (Nat.zero_add k).symm.trans hremoved.symm
  rw [guardedHoles, htally, randomHoles]
  rfl

end Grid

end Raceway
