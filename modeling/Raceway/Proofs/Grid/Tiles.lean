import Mathlib
import Raceway.Proofs.Execution
/-!
# The tiles that are left

An operation names the rows and columns in which it removes tiles, or it can remove any tile. Where
it does not remove, it leaves every tile in place, whatever it does to its offsets. So a tile that
no operation of a plan can remove is there at the end, once a grid has been built.

## Main definitions

* `Raceway.Op.mayRemove`: the operation can remove the tile at a row and a column.
* `Raceway.Grid.Holds` and `Raceway.Track.Holds`: the tile at a row and a column is there.

## Main results

* `Raceway.Grid.holds_act`: an operation leaves the tiles that it cannot remove.
* `Raceway.Track.holds_actAll`: so do operations in order.
-/

namespace Raceway

/-- The operation can remove the tile at a row and a column. A composite one can do so where one of
the operations can that it stands for. The columns are counted from zero here, and from one in the
operation. -/
def Op.mayRemove {α : Type} (op : Op α) (row col : UInt32) : Prop :=
  match op with
  | deleteRows a b | fork a b _ _ | rejoin a b _ => min a b ≤ row ∧ row ≤ max a b
  | deleteTiles cols r => r = row ∧ ∃ c ∈ cols, c.toNat = col.toNat + 1
  | randomHoles _ | jumpGaps _ => True
  | _ => False

namespace Grid

variable {g g' : Grid} {row col : UInt32} {i j : ℕ}

/-! ### Slots -/

theorem isSome_mapSlot {f : Tile → Option Tile} {slots : Array (Option Tile)}
    (hf : j = i → ∀ t, (f t).isSome = true) (h : (slots[i]?.join).isSome = true) :
    ((mapSlot f j slots)[i]?.join).isSome = true := by
  rw [mapSlot, Array.getElem?_modify]
  split_ifs with hij
  · obtain ⟨t, ht⟩ := Option.isSome_iff_exists.mp h
    rw [Option.join_eq_some_iff] at ht
    simpa [ht] using hf hij t
  · exact h

theorem isSome_foldl_mapSlot {β : Type} {slot : β → ℕ} {f : β → Tile → Option Tile} {l : List β}
    (hf : ∀ b ∈ l, slot b = i → ∀ t, (f b t).isSome = true) {slots : Array (Option Tile)}
    (h : (slots[i]?.join).isSome = true) :
    (((l.foldl (fun slots b => mapSlot (f b) (slot b) slots) slots)[i]?).join).isSome = true := by
  induction l generalizing slots with
  | nil => exact h
  | cons b l ih =>
    obtain ⟨hb, hl⟩ := List.forall_mem_cons.mp hf
    exact ih hl (isSome_mapSlot hb h)

/-- Where a change gives no tile for none, it leaves the tiles in place. -/
theorem isSome_slotTile?_mapTiles {span : Span} {f : ℕ → Tile → Option Tile}
    (hf : i ∈ span.slots → ∀ t, (f i t).isSome = true) (h : (g.slotTile? i).isSome = true) :
    ((g.mapTiles span f).slotTile? i).isSome = true :=
  isSome_foldl_mapSlot (fun _ hj hji => hji ▸ hf (hji ▸ hj)) h

theorem isSome_slotTile?_removeWhere {span : Span} {p : ℕ → Bool}
    (hp : i ∈ span.slots → p i = false) (h : (g.slotTile? i).isSome = true) :
    ((g.removeWhere span p).1.slotTile? i).isSome = true :=
  isSome_slotTile?_mapTiles (fun hi t => by rw [hp hi]; rfl) h

/-! ### Rows and columns -/

theorem mem_slots {span : Span} : i ∈ span.slots ↔ span.start ≤ i ∧ i < span.start + span.length :=
  List.mem_range'_1

/-- A slot of a row lies in no other row. -/
theorem row_eq_of_mem_rowSpan {r : UInt32} (hcol : col < g.cols)
    (h : g.index row col ∈ (g.rowSpan r).slots) : r = row := by
  have hcol : col.toNat < g.cols.toNat := hcol
  rw [rowSpan] at h
  split_ifs at h with hr
  · rw [mem_slots, index] at h
    dsimp only at h
    have hlow : r.toNat < row.toNat + 1 := by
      refine Nat.lt_of_mul_lt_mul_right (a := g.cols.toNat) ?_
      rw [Nat.add_one_mul]
      omega
    have hhigh : row.toNat < r.toNat + 1 := by
      refine Nat.lt_of_mul_lt_mul_right (a := g.cols.toNat) ?_
      rw [Nat.add_one_mul]
      omega
    exact UInt32.toNat_inj.mp (by omega)
  · simp [Span.slots] at h

/-- A slot of some rows lies in one of them. -/
theorem row_mem_of_mem_rowsSpan {a b : UInt32} (hcol : col < g.cols)
    (h : g.index row col ∈ (g.rowsSpan a b).slots) : min a b ≤ row ∧ row ≤ max a b := by
  have hcol : col.toNat < g.cols.toNat := hcol
  rw [rowsSpan, mem_slots, index] at h
  dsimp only at h
  obtain ⟨hfrom, hto⟩ := h
  have hlow : (min a b).toNat < row.toNat + 1 := by
    refine Nat.lt_of_mul_lt_mul_right (a := g.cols.toNat) ?_
    rw [Nat.add_one_mul]
    omega
  have hhigh : row.toNat < max (min a b).toNat (min ((max a b).toNat + 1) g.rows.toNat) := by
    refine Nat.lt_of_mul_lt_mul_right (a := g.cols.toNat) ?_
    rw [Nat.sub_mul] at hto
    rcases le_total (min a b).toNat (min ((max a b).toNat + 1) g.rows.toNat) with hle | hle
    · have := Nat.mul_le_mul_right g.cols.toNat hle
      rw [max_eq_right hle]
      omega
    · have := Nat.mul_le_mul_right g.cols.toNat hle
      rw [max_eq_left hle]
      omega
  rw [UInt32.le_iff_toNat_le, UInt32.le_iff_toNat_le]
  omega

theorem colOf_index (hcol : col < g.cols) : g.colOf (g.index row col) = col := by
  have hcol : col.toNat < g.cols.toNat := hcol
  rw [colOf, index, max_eq_left (by omega), Nat.add_comm, Nat.add_mul_mod_self_right,
    Nat.mod_eq_of_lt hcol, UInt32.ofNat_toNat]

/-! ### Tiles -/

/-- The tile at a row and a column is there, unless they lie outside of the grid. -/
def Holds (g : Grid) (row col : UInt32) : Prop :=
  g.inBounds row col = true → (g.tile? row col).isSome = true

theorem holds_full (rows cols row col : UInt32) : (full rows cols).Holds row col := by
  intro hin
  obtain ⟨hrow, hcol⟩ := Bool.and_eq_true_iff.mp hin
  have hrow : row.toNat + 1 ≤ rows.toNat := of_decide_eq_true hrow
  have hcol : col.toNat < cols.toNat := of_decide_eq_true hcol
  have hindex : row.toNat * cols.toNat + col.toNat < rows.toNat * cols.toNat := by
    have := Nat.mul_le_mul_right cols.toNat hrow
    rw [Nat.add_one_mul] at this
    omega
  rw [tile?, if_pos hin, slotTile?]
  simp [full, index, hindex]

/-- A change of the slots that leaves a tile in place. -/
theorem Holds.of_slots (h : g.Holds row col) (hrows : g'.rows = g.rows) (hcols : g'.cols = g.cols)
    (hslot : col < g.cols → (g.slotTile? (g.index row col)).isSome = true →
      (g'.slotTile? (g.index row col)).isSome = true) : g'.Holds row col := by
  have hbounds : g'.inBounds row col = g.inBounds row col := by
    rw [inBounds, inBounds, hrows, hcols]
  have hindex : g'.index row col = g.index row col := by rw [index, index, hcols]
  intro hin
  have hin' := hbounds ▸ hin
  have ht := h hin'
  rw [tile?, if_pos hin'] at ht
  rw [tile?, if_pos hin, hindex]
  exact hslot (of_decide_eq_true (Bool.and_eq_true_iff.mp hin').2) ht

/-- An operation leaves the tiles that it cannot remove. -/
theorem holds_act (params : Params) {op : Op Float} (hop : ¬ op.mayRemove row col)
    (h : g.Holds row col) (stream : Random.Stream) : (g.act params op stream).1.Holds row col := by
  cases op with
  | deleteRows a b =>
    refine h.of_slots rfl rfl fun hcol => isSome_slotTile?_removeWhere fun hi => ?_
    exact absurd (row_mem_of_mem_rowsSpan hcol hi) hop
  | deleteTiles cols r =>
    refine h.of_slots rfl rfl fun hcol => isSome_slotTile?_removeWhere fun hi => ?_
    refine List.any_eq_false.mpr fun c hc heq => hop ⟨row_eq_of_mem_rowSpan hcol hi, c, hc, ?_⟩
    rw [← beq_iff_eq.mp heq |>.symm, colOf_index hcol]
  | randomHoles percent => exact absurd trivial hop
  | jumpGaps n => exact absurd trivial hop
  | curve a b side degrees =>
    exact h.of_slots rfl rfl fun _ => isSome_slotTile?_mapTiles fun _ _ => rfl
  | sBend a b degrees gain ratio =>
    exact h.of_slots rfl rfl fun _ => isSome_slotTile?_mapTiles fun _ _ => rfl
  | slopes low high segment =>
    exact h.of_slots rfl rfl fun _ => isSome_slotTile?_mapTiles fun _ _ => rfl
  | smoothColumns passes =>
    exact h.of_slots rfl rfl fun _ => isSome_foldl_mapSlot fun _ _ _ _ => rfl
  | _ => exact h

end Grid

/-! ### Operations in order -/

namespace Track

variable {params : Params} {row col : UInt32} {t : Track}

/-- The tile at a row and a column is there, if a grid is and they lie in it. -/
def Holds (t : Track) (row col : UInt32) : Prop :=
  ∀ g, t.grid = some g → g.Holds row col

theorem holds_of_grid_none (h : t.grid = none) : t.Holds row col := by
  intro g hg
  rw [h] at hg
  cases hg

theorem holds_act {op : Op Float} (hop : ¬ op.mayRemove row col) (h : t.Holds row col) :
    (t.act params op).1.Holds row col := by
  obtain ⟨grid, stream⟩ := t
  rintro g' hg'
  cases op with
  | build rows cols =>
    obtain rfl := Option.some.inj hg'
    exact Grid.holds_full rows cols row col
  | _ =>
    cases grid with
    | none => cases hg'
    | some g =>
      obtain rfl := Option.some.inj hg'
      exact Grid.holds_act params hop (h g rfl) stream

/-- Operations that cannot remove a tile leave it there, and build it with a grid. -/
theorem holds_actAll {ops : Plan Float} (hops : ∀ op ∈ ops, ¬ op.mayRemove row col)
    (h : t.Holds row col) : (t.actAll params ops).Holds row col := by
  induction ops generalizing t with
  | nil => exact h
  | cons op ops ih =>
    obtain ⟨hop, hops⟩ := List.forall_mem_cons.mp hops
    exact ih hops (holds_act hop h)

end Track

end Raceway
