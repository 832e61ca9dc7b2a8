import Mathlib
import Raceway.Proofs.Grid.Counting
import Raceway.Proofs.Grid.Tiles
/-!
# Slots row by row

In a grid that is laid out there is one slot for each pair of a row and a column. The slots of a row
follow each other, one for each column, and the slots of some rows are those of the first row, then
those of the next one. So what goes through the slots of a range also goes row by row, and through
each row column by column.

What is removed from some slots depends on which slots they are, and not on their order.

## Main definitions

* `Raceway.words`: row and column numbers in order.
* `Raceway.Grid.Laid`: the grid is laid out.
* `Raceway.Grid.removeSlots` and `Raceway.Grid.displaceSlots`: removing and displacing the tiles in
  some slots.

## Main results

* `Raceway.Grid.slots_rowSpan`, `Raceway.Grid.slots_rowsSpan` and `Raceway.Grid.slots_fullSpan`: the
  slots of a row by columns, and those of a range by rows.
* `Raceway.Grid.Laid.index_lt`: a row and a column in the grid have a slot.
* `Raceway.Grid.tile?_mapTiles`: a change of the tiles in a range, by rows and columns.
* `Raceway.Grid.removeSlots_congr`: the order of removals makes no difference.
-/

namespace Raceway

/-! ### Words -/

theorem toNat_mul_toNat_le (a b : UInt32) :
    a.toNat * b.toNat ≤ (2 ^ 32 - 1) * (2 ^ 32 - 1) :=
  Nat.mul_le_mul (Nat.le_sub_one_of_lt a.toNat_lt) (Nat.le_sub_one_of_lt b.toNat_lt)

theorem one_le_of_lt {a b : UInt32} (h : a < b) : 1 ≤ b := by
  rw [UInt32.le_iff_toNat_le, UInt32.toNat_one]
  exact Nat.one_le_of_lt (UInt32.lt_iff_toNat_lt.mp h)

/-- The words from a number on, in order. -/
def words (start length : ℕ) : List UInt32 :=
  (List.range' start length).map UInt32.ofNat

theorem mem_words {start length : ℕ} (h : start + length ≤ UInt32.size) {w : UInt32} :
    w ∈ words start length ↔ start ≤ w.toNat ∧ w.toNat < start + length := by
  rw [words, List.mem_map]
  constructor
  · rintro ⟨n, hn, rfl⟩
    rw [List.mem_range'_1] at hn
    rwa [UInt32.toNat_ofNat_of_lt' (by omega)]
  · intro hw
    exact ⟨w.toNat, List.mem_range'_1.mpr hw, UInt32.ofNat_toNat⟩

theorem mem_words_zero {n w : UInt32} : w ∈ words 0 n.toNat ↔ w < n := by
  have hn := n.toNat_lt
  rw [mem_words (by rw [UInt32.size]; omega), Nat.zero_add, and_iff_right (Nat.zero_le _),
    UInt32.lt_iff_toNat_lt]

theorem nodup_words {start length : ℕ} (h : start + length ≤ UInt32.size) :
    (words start length).Nodup := by
  refine List.Nodup.map_on (fun m hm n hn heq => ?_) List.nodup_range'
  rw [List.mem_range'_1] at hm hn
  rw [← UInt32.toNat_ofNat_of_lt' (hm.2.trans_le h), heq,
    UInt32.toNat_ofNat_of_lt' (hn.2.trans_le h)]

/-- In front of a word there are as many words as it says. -/
theorem toNat_eq_length_of_words {n : ℕ} (hn : n ≤ UInt32.size) {before after : List UInt32}
    {w : UInt32} (h : words 0 n = before ++ w :: after) :
    w.toNat = before.length ∧ before.length < n := by
  have hlength := congrArg List.length h
  rw [words, List.length_map, List.length_range', List.length_append, List.length_cons] at hlength
  have hlt : before.length < n := by omega
  have hget : (words 0 n)[before.length]? = some w := by
    rw [h, List.getElem?_append_right le_rfl, Nat.sub_self, List.getElem?_cons_zero]
  rw [words, List.getElem?_map, List.getElem?_range' hlt, Option.map_some, Nat.zero_add,
    Nat.one_mul, Option.some.injEq] at hget
  rw [← hget, UInt32.toNat_ofNat_of_lt' (by omega)]
  exact ⟨rfl, hlt⟩

/-- A range of numbers in blocks of the same length. -/
theorem range'_mul (start blocks length : ℕ) :
    List.range' (start * length) (blocks * length) =
      (List.range' start blocks).flatMap fun block => List.range' (block * length) length := by
  induction blocks generalizing start with
  | zero => rw [Nat.zero_mul]; rfl
  | succ blocks ih =>
    rw [List.range'_succ, List.flatMap_cons, ← ih, Nat.add_one_mul, Nat.add_one_mul, Nat.add_comm,
      ← List.range'_append_1]

namespace Grid

variable {g : Grid} {row col : UInt32} {i : ℕ} {slots : Array (Option Tile)}

/-! ### Rows and columns -/

theorem inBounds_iff : g.inBounds row col = true ↔ row < g.rows ∧ col < g.cols := by
  rw [inBounds, Bool.and_eq_true, decide_eq_true_iff, decide_eq_true_iff]

theorem index_lt_two_pow (g : Grid) (row col : UInt32) : g.index row col < 2 ^ 64 := by
  have hmul := toNat_mul_toNat_le row g.cols
  have hcol := col.toNat_lt
  rw [index]
  omega

theorem rowOf_index (hcol : col < g.cols) : g.rowOf (g.index row col) = row := by
  have hcol : col.toNat < g.cols.toNat := hcol
  rw [rowOf, index, max_eq_left (by omega), Nat.add_comm, Nat.add_mul_div_right _ _ (by omega),
    Nat.div_eq_of_lt hcol, Nat.zero_add, UInt32.ofNat_toNat]

/-- A slot belongs to one row and one column. -/
theorem index_inj {row' col' : UInt32} (hcol : col < g.cols) (hcol' : col' < g.cols)
    (h : g.index row col = g.index row' col') : (row, col) = (row', col') := by
  have hrows : g.rowOf (g.index row col) = g.rowOf (g.index row' col') := congrArg g.rowOf h
  have hcols : g.colOf (g.index row col) = g.colOf (g.index row' col') := congrArg g.colOf h
  rw [rowOf_index hcol, rowOf_index hcol'] at hrows
  rw [colOf_index hcol, colOf_index hcol'] at hcols
  rw [hrows, hcols]

/-- The slots of a row, column by column. -/
theorem slots_rowSpan (hrow : row < g.rows) :
    (g.rowSpan row).slots = (words 0 g.cols.toNat).map (g.index row) := by
  rw [rowSpan, if_pos hrow, Span.slots, words, List.map_map, List.range'_eq_map_range,
    ← List.range_eq_range']
  refine List.map_congr_left fun col hcol => ?_
  have hcol : col < UInt32.size := (List.mem_range.mp hcol).trans g.cols.toNat_lt
  rw [Function.comp_apply, index, UInt32.toNat_ofNat_of_lt' hcol]

theorem slots_rowSpan_of_le (hrow : ¬ row < g.rows) : (g.rowSpan row).slots = [] := by
  rw [rowSpan, if_neg hrow]
  rfl

theorem rowOf_of_mem_rowSpan (h : i ∈ (g.rowSpan row).slots) : g.rowOf i = row := by
  by_cases hrow : row < g.rows
  · rw [slots_rowSpan hrow] at h
    obtain ⟨col, hcol, rfl⟩ := List.mem_map.mp h
    exact rowOf_index (mem_words_zero.mp hcol)
  · rw [slots_rowSpan_of_le hrow] at h
    cases h

/-- The slots of a column that hold a tile, by rows. -/
theorem columnSlots_toNat (g : Grid) (col : UInt32) :
    g.columnSlots col.toNat =
      ((words 0 g.rows.toNat).map fun row => g.index row col).filter fun i =>
        (g.slotTile? i).isSome := by
  rw [columnSlots, words, List.map_map, List.range_eq_range']
  refine congrArg (List.filter _) (List.map_congr_left fun row hrow => ?_)
  rw [List.mem_range'_1] at hrow
  have hlt : row < UInt32.size := hrow.2.trans (by simpa using g.rows.toNat_lt)
  rw [Function.comp_apply, index, UInt32.toNat_ofNat_of_lt' hlt]

/-- The slots of a column lie in that column. -/
theorem mod_of_mem_columnSlots {c : ℕ} (hc : c < g.cols.toNat) (h : i ∈ g.columnSlots c) :
    i % g.cols.toNat = c := by
  obtain ⟨row, -, hrow⟩ := List.mem_map.mp (List.mem_filter.mp h).1
  rw [← hrow, Nat.add_comm, Nat.add_mul_mod_self_right, Nat.mod_eq_of_lt hc]

/-- The slots of some rows, row by row. -/
theorem flatMap_rowSpan {first count : ℕ} (h : first + count ≤ g.rows.toNat) :
    (words first count).flatMap (fun row => (g.rowSpan row).slots) =
      List.range' (first * g.cols.toNat) (count * g.cols.toNat) := by
  have hrows := g.rows.toNat_lt
  rw [range'_mul, words, List.flatMap_map]
  refine List.flatMap_congr fun row hrow => ?_
  rw [List.mem_range'_1] at hrow
  have htoNat : (UInt32.ofNat row).toNat = row := UInt32.toNat_ofNat_of_lt' (by
    rw [UInt32.size]
    omega)
  have hlt : UInt32.ofNat row < g.rows := UInt32.lt_iff_toNat_lt.mpr (by omega)
  rw [rowSpan, if_pos hlt, htoNat, Span.slots]

/-- The slots of the rows between two rows that reach into the grid, up to the last one in it. -/
theorem slots_rowsSpan {a b : UInt32} (h : min a b < g.rows) :
    (g.rowsSpan a b).slots =
      (words (min a b).toNat
        ((min (max a b) (g.rows - 1)).toNat + 1 - (min a b).toNat)).flatMap
          fun row => (g.rowSpan row).slots := by
  have hlow : (min a b).toNat < g.rows.toNat := UInt32.lt_iff_toNat_lt.mp h
  have hlast : (min (max a b) (g.rows - 1)).toNat + 1 =
      min ((max a b).toNat + 1) g.rows.toNat := by
    rw [UInt32.toNat_min, UInt32.toNat_sub_of_le _ _ (one_le_of_lt h), UInt32.toNat_one]
    omega
  rw [hlast, flatMap_rowSpan (by omega), rowsSpan, Span.slots]

/-- No slots lie between two rows behind the grid. -/
theorem slots_rowsSpan_of_le {a b : UInt32} (h : ¬ min a b < g.rows) :
    (g.rowsSpan a b).slots = [] := by
  have hle : g.rows.toNat ≤ (min a b).toNat := UInt32.le_iff_toNat_le.mp (UInt32.not_lt.mp h)
  have hnone : min ((max a b).toNat + 1) g.rows.toNat - (min a b).toNat = 0 := by omega
  rw [rowsSpan, Span.slots, hnone, Nat.zero_mul]
  rfl

/-! ### Grids that are laid out -/

/-- There is one slot for each pair of a row and a column. -/
def Laid (g : Grid) : Prop :=
  g.slots.size = g.rows.toNat * g.cols.toNat

theorem Laid.index_lt (h : g.Laid) (hin : g.inBounds row col = true) :
    g.index row col < g.slots.size := by
  obtain ⟨hrow, hcol⟩ := inBounds_iff.mp hin
  have hrow : row.toNat + 1 ≤ g.rows.toNat := hrow
  have hcol : col.toNat < g.cols.toNat := hcol
  have hle := Nat.mul_le_mul_right g.cols.toNat hrow
  rw [Nat.add_one_mul] at hle
  rw [h, index]
  omega

/-- The slots of a row lie in the grid. -/
theorem Laid.rowSpan_le (h : g.Laid) (row : UInt32) :
    (g.rowSpan row).start + (g.rowSpan row).length ≤ g.slots.size := by
  rw [rowSpan]
  split_ifs with hrow
  · have hrow : row.toNat + 1 ≤ g.rows.toNat := hrow
    have hle := Nat.mul_le_mul_right g.cols.toNat hrow
    rw [Nat.add_one_mul] at hle
    rw [h]
    exact hle
  · exact Nat.zero_le _

theorem slots_fullSpan (h : g.Laid) :
    g.fullSpan.slots = (words 0 g.rows.toNat).flatMap fun row => (g.rowSpan row).slots := by
  rw [flatMap_rowSpan (by omega), fullSpan, Span.slots, h, Nat.zero_mul]

theorem countTiles_fullSpan (g : Grid) : g.countTiles g.fullSpan = g.tileCount := by
  have hslots : g.slots.toList = (List.range g.slots.size).map g.slotTile? := by
    refine List.ext_getElem (by simp) fun i h _ => ?_
    rw [Array.length_toList] at h
    simp [slotTile?, h]
  rw [countTiles, tileCount, ← Array.countP_toList, hslots, List.countP_map, fullSpan, Span.slots,
    List.range_eq_range']
  rfl

/-! ### Changes of some slots -/

/-- Changes of tiles keep the number of slots. -/
theorem size_foldl_changes {β : Type} (slot : β → ℕ) (f : β → Tile → Option Tile) (l : List β)
    (slots : Array (Option Tile)) :
    (l.foldl (fun slots b => mapSlot (f b) (slot b) slots) slots).size = slots.size := by
  induction l generalizing slots with
  | nil => rfl
  | cons b l ih => rw [List.foldl_cons, ih, mapSlot, Array.size_modify]

/-- Changes of different slots change each of them once. -/
theorem join_getElem?_foldl_mapSlot {f : ℕ → Tile → Option Tile} {is : List ℕ} (hnodup : is.Nodup)
    (slots : Array (Option Tile)) (i : ℕ) :
    (is.foldl (fun slots j => mapSlot (f j) j slots) slots)[i]?.join =
      if i ∈ is then slots[i]?.join.bind (f i) else slots[i]?.join := by
  induction is generalizing slots with
  | nil => rfl
  | cons j is ih =>
    obtain ⟨hj, his⟩ := List.nodup_cons.mp hnodup
    rw [List.foldl_cons, ih his, mapSlot, Array.getElem?_modify]
    by_cases hij : j = i
    · subst hij
      rw [if_neg hj, if_pos rfl, if_pos List.mem_cons_self]
      rcases slots[j]? with _ | _ | t <;> rfl
    · rw [if_neg hij]
      simp only [List.mem_cons, Ne.symm hij, false_or]

theorem slotTile?_mapTiles (g : Grid) (span : Span) (f : ℕ → Tile → Option Tile) (i : ℕ) :
    (g.mapTiles span f).slotTile? i =
      if i ∈ span.slots then (g.slotTile? i).bind (f i) else g.slotTile? i :=
  join_getElem?_foldl_mapSlot List.nodup_range' g.slots i

/-- A change of the tiles in a range, by rows and columns. -/
theorem tile?_mapTiles (g : Grid) (span : Span) (f : ℕ → Tile → Option Tile) (row col : UInt32) :
    (g.mapTiles span f).tile? row col =
      if g.index row col ∈ span.slots then (g.tile? row col).bind (f (g.index row col))
      else g.tile? row col := by
  have htile : (g.mapTiles span f).tile? row col =
      if g.inBounds row col then (g.mapTiles span f).slotTile? (g.index row col) else none := rfl
  rw [htile, slotTile?_mapTiles, tile?]
  split_ifs <;> rfl

/-- A change of all tiles. A place that is no slot holds no tile. -/
theorem tile?_mapTiles_fullSpan (g : Grid) (f : ℕ → Tile → Option Tile) (row col : UInt32) :
    (g.mapTiles g.fullSpan f).tile? row col = (g.tile? row col).bind (f (g.index row col)) := by
  rw [tile?_mapTiles]
  split_ifs with hspan
  · rfl
  · rw [mem_slots, fullSpan, Nat.zero_add, and_iff_right (Nat.zero_le _), not_lt] at hspan
    rw [tile?, slotTile?, Array.getElem?_eq_none hspan, Option.join_none, ite_self,
      Option.bind_none]

/-- A tile lies in the grid. -/
theorem lt_of_tile?_eq_some {t : Tile} (h : g.tile? row col = some t) :
    row < g.rows ∧ col < g.cols := by
  rw [tile?] at h
  split_ifs at h with hin
  exact inBounds_iff.mp hin

/-- Remove the tiles in some slots. -/
def removeSlots (is : List ℕ) (slots : Array (Option Tile)) : Array (Option Tile) :=
  is.foldl (fun slots i => mapSlot (fun _ => none) i slots) slots

/-- Displace the tiles in some slots. -/
def displaceSlots (f : ℕ → Tile → Tile) (is : List ℕ) (slots : Array (Option Tile)) :
    Array (Option Tile) :=
  is.foldl (fun slots i => mapSlot (fun t => some (f i t)) i slots) slots

theorem removeSlots_append (is js : List ℕ) (slots : Array (Option Tile)) :
    removeSlots (is ++ js) slots = removeSlots js (removeSlots is slots) :=
  List.foldl_append

theorem displaceSlots_append (f : ℕ → Tile → Tile) (is js : List ℕ)
    (slots : Array (Option Tile)) :
    displaceSlots f (is ++ js) slots = displaceSlots f js (displaceSlots f is slots) :=
  List.foldl_append

/-- A displacement depends on what it does in the slots that it visits. -/
theorem displaceSlots_congr {f f' : ℕ → Tile → Tile} {is : List ℕ} (h : ∀ i ∈ is, f i = f' i)
    (slots : Array (Option Tile)) : displaceSlots f is slots = displaceSlots f' is slots :=
  List.foldl_ext _ _ _ fun slots i hi => by rw [h i hi]

theorem getElem?_removeSlots (is : List ℕ) (slots : Array (Option Tile)) (j : ℕ) :
    (removeSlots is slots)[j]? =
      if j ∈ is then slots[j]?.map fun _ => none else slots[j]? := by
  induction is generalizing slots with
  | nil => rfl
  | cons i is ih =>
    have hcons : removeSlots (i :: is) slots =
        removeSlots is (mapSlot (fun _ => none) i slots) := rfl
    rw [hcons, ih, mapSlot, Array.getElem?_modify]
    by_cases hij : i = j
    · subst hij
      rw [if_pos rfl, if_pos List.mem_cons_self]
      cases slots[i]? <;> simp
    · rw [if_neg hij]
      simp only [List.mem_cons, Ne.symm hij, false_or]

/-- What is removed depends on which slots are visited, and not on how often or in which order. -/
theorem removeSlots_congr {is js : List ℕ} (h : ∀ i, i ∈ is ↔ i ∈ js)
    (slots : Array (Option Tile)) : removeSlots is slots = removeSlots js slots := by
  refine Array.ext_getElem? fun j => ?_
  simp only [getElem?_removeSlots, h j]

/-- A removal by a test visits the slots that pass it. -/
theorem removeWhere_fst (g : Grid) (span : Span) (p : ℕ → Bool) :
    (g.removeWhere span p).1 = { g with slots := removeSlots (span.slots.filter p) g.slots } := by
  have hfold (is : List ℕ) (slots : Array (Option Tile)) :
      is.foldl (fun slots i => mapSlot (fun t => if p i then none else some t) i slots) slots =
        removeSlots (is.filter p) slots := by
    induction is generalizing slots with
    | nil => rfl
    | cons i is ih =>
      rw [List.foldl_cons, ih, List.filter_cons]
      cases p i with
      | true => rfl
      | false => exact congrArg _ (mapSlot_some i slots)
  exact congrArg (fun slots => ({ g with slots := slots } : Grid)) (hfold span.slots g.slots)

end Grid

end Raceway
