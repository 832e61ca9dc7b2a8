import Mathlib
import Raceway.Proofs.Exact
import Raceway.Proofs.Grid.Slots
/-!
# Evenly spaced gaps

A number of gaps are spread evenly along the rows of a grid, each in the row that is nearest to
its place. With at least as many gaps as rows, two gaps are less than a row apart, so that they hit
every row from the first gap on: going through these rows, and not through the gaps, removes the
same tiles.

## Main definitions

* `Raceway.Grid.evenRow` and `Raceway.Grid.evenRows`: the rows of the gaps.

## Main results

* `Raceway.Grid.exists_evenRow_eq`: where gaps are close, no row is skipped.
* `Raceway.Grid.mem_gapRows`: the rows that are gone through are those of the gaps.
* `Raceway.Grid.tile?_jumpGaps`: the tiles that are left.
-/

namespace Raceway

open Scalar

namespace Grid

/-! ### The rows of the gaps -/

/-- The row of the gap with the given number, of `n` gaps that are spread evenly along some rows. -/
def evenRow (rows n i : ℕ) : ℕ :=
  (nearest (i * rows / (n + 1))).toNat

/-- The rows of `n` gaps that are spread evenly along some rows, as far as they are among them. -/
def evenRows (rows n : ℕ) : Finset ℕ :=
  ((Finset.Icc 1 n).image (evenRow rows n)).filter (· < rows)

variable {rows n i j row : ℕ}

theorem evenRow_eq (rows n i : ℕ) :
    (evenRow rows n i : ℤ) = nearest (i * rows / (n + 1)) :=
  Int.toNat_of_nonneg (nearest_nonneg (by positivity))

theorem evenRow_mono (rows n : ℕ) : Monotone (evenRow rows n) := by
  intro i j hij
  have hplace : (i * rows / (n + 1) : ℚ) ≤ j * rows / (n + 1) := by gcongr
  have hle := nearest_mono hplace
  rw [← evenRow_eq, ← evenRow_eq] at hle
  exact_mod_cast hle

theorem evenRow_le (rows : ℕ) (hi : i ≤ n + 1) : evenRow rows n i ≤ rows := by
  have hplace : (i * rows / (n + 1) : ℚ) ≤ (rows : ℤ) := by
    have hi : (i : ℚ) ≤ n + 1 := by exact_mod_cast hi
    rw [div_le_iff₀ (by positivity), mul_comm, Int.cast_natCast]
    gcongr
  have hle := nearest_mono hplace
  rw [← evenRow_eq, nearest_intCast] at hle
  exact_mod_cast hle

/-- Gaps that are less than a row apart lie in the same row or in two that follow each other. -/
theorem evenRow_succ_le (h : rows ≤ n) (i : ℕ) : evenRow rows n (i + 1) ≤ evenRow rows n i + 1 := by
  have hrows : (rows : ℚ) ≤ n := by exact_mod_cast h
  have hplace : ((i + 1 : ℕ) * rows / (n + 1) : ℚ) = i * rows / (n + 1) + rows / (n + 1) := by
    push_cast
    ring
  have hstep : (rows / (n + 1) : ℚ) ≤ 1 := by
    rw [div_le_one (by positivity)]
    linarith
  have hle : nearest (i * rows / (n + 1) + rows / (n + 1)) ≤ nearest (i * rows / (n + 1)) + 1 :=
    nearest_add_le (by positivity) (by positivity) hstep
  rw [← hplace, ← evenRow_eq, ← evenRow_eq] at hle
  exact_mod_cast hle

/-- The last of many gaps is not in front of the last row. -/
theorem le_evenRow_last (h : rows ≤ n) : rows ≤ evenRow rows n n + 1 := by
  have hrows : (rows : ℚ) ≤ n := by exact_mod_cast h
  have hplace : ((rows - 1 : ℤ) : ℚ) ≤ n * rows / (n + 1) := by
    rw [le_div_iff₀ (by positivity)]
    push_cast
    linarith
  have hle := nearest_mono hplace
  rw [nearest_intCast, ← evenRow_eq] at hle
  omega

/-- Where gaps are close, they hit every row from the first gap on. -/
theorem exists_evenRow_eq (h : rows ≤ n) (hlow : evenRow rows n 1 ≤ row) (hj : 1 ≤ j)
    (hhigh : row ≤ evenRow rows n j) : ∃ i, 1 ≤ i ∧ i ≤ j ∧ evenRow rows n i = row := by
  induction j, hj using Nat.le_induction with
  | base => exact ⟨1, le_rfl, le_rfl, le_antisymm hlow hhigh⟩
  | succ j hj ih =>
    by_cases hrow : row ≤ evenRow rows n j
    · obtain ⟨i, hi, hij, heq⟩ := ih hrow
      exact ⟨i, hi, hij.trans (Nat.le_succ j), heq⟩
    · -- The row is passed between two gaps, which are at most one row apart.
      have hstep := evenRow_succ_le h j
      exact ⟨j + 1, hj.trans (Nat.le_succ j), le_rfl, by omega⟩

/-- With at least as many gaps as rows, the rows of the gaps are those from the first one on. -/
theorem mem_evenRows_of_le (h : rows ≤ n) (hn : 1 ≤ n) :
    row ∈ evenRows rows n ↔ evenRow rows n 1 ≤ row ∧ row < rows := by
  simp only [evenRows, Finset.mem_filter, Finset.mem_image, Finset.mem_Icc]
  refine and_congr_left fun hrow => ⟨?_, fun hlow => ?_⟩
  · rintro ⟨i, ⟨hi, -⟩, rfl⟩
    exact evenRow_mono rows n hi
  · have hlast := le_evenRow_last h
    obtain ⟨i, hi, hin, heq⟩ := exists_evenRow_eq h hlow hn (by omega)
    exact ⟨i, ⟨hi, hin⟩, heq⟩

theorem card_evenRows_le (rows n : ℕ) : (evenRows rows n).card ≤ n := by
  refine (Finset.card_filter_le _ _).trans (Finset.card_image_le.trans ?_)
  rw [Nat.card_Icc]
  omega

/-- The row of a gap in exact numbers. -/
theorem toNat_gapRow (rows : UInt32) {n i : UInt32} (hi : i ≤ n) :
    (gapRow ℚ rows n i).toNat = evenRow rows.toNat n.toNat i.toNat := by
  have hrows := rows.toNat_lt
  have hle : evenRow rows.toNat n.toNat i.toNat ≤ rows.toNat :=
    evenRow_le _ ((UInt32.le_iff_toNat_le.mp hi).trans (Nat.le_succ _))
  have hrow : gapRow ℚ rows n i =
      toCount (((evenRow rows.toNat n.toNat i.toNat : ℤ) : ℚ)) := by
    rw [evenRow_eq, gapRow, round_eq_nearest, ofCount_eq, ofCount_eq, ofCount_eq, ofCount_eq,
      UInt32.toNat_one, Nat.cast_one]
  rw [hrow]
  exact Int.ofNat_inj.mp (toNat_toCount (Int.natCast_nonneg _) (by omega))

/-- The rows that are gone through are those of the gaps, also where a shortcut is taken. -/
theorem mem_gapRows {rows n row : UInt32} (hrow : row < rows) :
    row ∈ gapRows ℚ rows n ↔ row.toNat ∈ evenRows rows.toNat n.toNat := by
  have hlt : row.toNat < rows.toNat := hrow
  have hrows := rows.toNat_lt
  rw [gapRows]
  split_ifs with hzero hmany
  · simp [evenRows, hzero]
  · have hmany : rows.toNat ≤ n.toNat := hmany
    have hone : 1 ≤ n := UInt32.le_iff_toNat_le.mpr (by rw [UInt32.toNat_one]; omega)
    have hfirst := toNat_gapRow rows hone
    have hle : evenRow rows.toNat n.toNat 1 ≤ rows.toNat := evenRow_le _ (by omega)
    rw [UInt32.toNat_one] at hfirst
    rw [mem_evenRows_of_le hmany (by omega), hfirst]
    exact (mem_words (by rw [UInt32.size]; omega)).trans (by omega)
  · simp only [evenRows, Finset.mem_filter, Finset.mem_image, Finset.mem_Icc, List.mem_map,
      List.mem_range'_1, and_iff_left hlt]
    have hn := n.toNat_lt
    have hgap {i : ℕ} (hi : i ≤ n.toNat) :
        (gapRow ℚ rows n (UInt32.ofNat i)).toNat = evenRow rows.toNat n.toNat i := by
      have htoNat : (UInt32.ofNat i).toNat = i :=
        UInt32.toNat_ofNat_of_lt' (by rw [UInt32.size]; omega)
      rw [toNat_gapRow rows (UInt32.le_iff_toNat_le.mpr (htoNat.trans_le hi)), htoNat]
    constructor
    · rintro ⟨i, ⟨hi, hin⟩, rfl⟩
      exact ⟨i, ⟨hi, by omega⟩, (hgap (by omega)).symm⟩
    · rintro ⟨i, ⟨hi, hin⟩, heq⟩
      exact ⟨i, ⟨hi, by omega⟩, UInt32.toNat_inj.mp ((hgap hin).trans heq)⟩

/-! ### Removing rows -/

section Removing

variable {g : Grid} {row col : UInt32}

theorem mem_rowSpan_iff {r : UInt32} (hin : g.inBounds row col = true) :
    g.index row col ∈ (g.rowSpan r).slots ↔ row = r := by
  obtain ⟨hrow, hcol⟩ := inBounds_iff.mp hin
  constructor
  · exact fun h => (row_eq_of_mem_rowSpan hcol h).symm
  · rintro rfl
    rw [slots_rowSpan hrow]
    exact List.mem_map_of_mem (mem_words_zero.mpr hcol)

/-- Removing a row takes its tiles and no others. -/
theorem tile?_removeRow (g : Grid) (r row col : UInt32) :
    (g.removeRow r).1.tile? row col = if row = r then none else g.tile? row col := by
  have htile : (g.removeRow r).1.tile? row col = if g.inBounds row col then
      (removeSlots (g.rowSpan r).slots g.slots)[g.index row col]?.join else none := by
    rw [removeRow, removeWhere_fst, List.filter_true]
    rfl
  rw [htile, tile?]
  by_cases hin : g.inBounds row col = true
  · rw [if_pos hin, if_pos hin, getElem?_removeSlots, if_congr (mem_rowSpan_iff hin) rfl rfl,
      slotTile?]
    split_ifs
    · cases g.slots[g.index row col]? <;> rfl
    · rfl
  · rw [if_neg hin, if_neg hin, ite_self]

/-- Cutting a gap changes the slots alone. -/
theorem cutGap_fst_eq (s : Grid × ℕ) (r : UInt32) :
    (cutGap s r).1 = { s.1 with slots := (cutGap s r).1.slots } := by
  rw [cutGap]
  split_ifs <;> rfl

theorem foldl_cutGap_fst_eq (cuts : List UInt32) (s : Grid × ℕ) :
    (cuts.foldl cutGap s).1 = { s.1 with slots := (cuts.foldl cutGap s).1.slots } := by
  induction cuts generalizing s with
  | nil => rfl
  | cons r cuts ih =>
    rw [List.foldl_cons, ih, cutGap_fst_eq s r]

/-- Cutting a gap takes the tiles of its row, unless that is protected. -/
theorem tile?_cutGap (s : Grid × ℕ) (r row col : UInt32) :
    (cutGap s r).1.tile? row col =
      if row = r ∧ s.1.isProtected row = false then none else s.1.tile? row col := by
  rw [cutGap]
  split_ifs with hcut hrow hrow
  · rw [tile?_removeRow, if_pos hrow.1]
  · rw [Bool.and_eq_true, Bool.not_eq_true'] at hcut
    have hother : row ≠ r := by
      rintro rfl
      exact hrow ⟨rfl, hcut.2⟩
    rw [tile?_removeRow, if_neg hother]
  · -- A row that is not protected and yet not cut lies behind the grid.
    obtain ⟨rfl, hfree⟩ := hrow
    have hout : s.1.inBounds row col = false := by
      rw [hfree, Bool.not_false, Bool.and_true] at hcut
      rw [inBounds, Bool.eq_false_iff.mpr hcut, Bool.false_and]
    rw [tile?, hout, if_neg Bool.false_ne_true]
  · rfl

theorem tile?_foldl_cutGap (cuts : List UInt32) (s : Grid × ℕ) (row col : UInt32) :
    (cuts.foldl cutGap s).1.tile? row col =
      if row ∈ cuts ∧ s.1.isProtected row = false then none else s.1.tile? row col := by
  induction cuts generalizing s with
  | nil => simp
  | cons r cuts ih =>
    have hprotected : (cutGap s r).1.isProtected row = s.1.isProtected row := by
      rw [cutGap_fst_eq]
      rfl
    rw [List.foldl_cons, ih, tile?_cutGap, hprotected, ← ite_or]
    refine if_congr ?_ rfl rfl
    rw [← or_and_right, or_comm, List.mem_cons]

/-- Evenly spaced gaps, over exact numbers, for every grid and every number of them. They take the
tiles of the rows of the gaps that are not protected, and leave all others as they are, with or
without the shortcut. The count is that of the tiles that are gone, and no more rows are touched
than there are gaps. -/
theorem tile?_jumpGaps (g : Grid) (n : UInt32) :
    (g.jumpGaps ℚ n).1 = { g with slots := (g.jumpGaps ℚ n).1.slots } ∧
    (∀ row col, (g.jumpGaps ℚ n).1.tile? row col =
      if row.toNat ∈ evenRows g.rows.toNat n.toNat ∧ g.isProtected row = false then none
      else g.tile? row col) ∧
    (g.jumpGaps ℚ n).1.tileCount + (g.jumpGaps ℚ n).2 = g.tileCount ∧
    {row | ∃ col, (g.jumpGaps ℚ n).1.tile? row col ≠ g.tile? row col}.encard ≤ n.toNat := by
  have htile (row col : UInt32) : (g.jumpGaps ℚ n).1.tile? row col =
      if row.toNat ∈ evenRows g.rows.toNat n.toNat ∧ g.isProtected row = false then none
      else g.tile? row col := by
    rw [jumpGaps, tile?_foldl_cutGap]
    by_cases hrow : row < g.rows
    · rw [if_congr (and_congr_left' (mem_gapRows hrow)) rfl rfl]
    · have hout : g.tile? row col = none := by
        rw [tile?, inBounds, decide_eq_false hrow, Bool.false_and, if_neg Bool.false_ne_true]
      rw [hout, ite_self, ite_self]
  refine ⟨foldl_cutGap_fst_eq _ (g, 0), htile, tileCount_jumpGaps ℚ g n, ?_⟩
  have hmaps : Set.MapsTo UInt32.toNat
      {row | ∃ col, (g.jumpGaps ℚ n).1.tile? row col ≠ g.tile? row col}
      (evenRows g.rows.toNat n.toNat : Set ℕ) := by
    rintro row ⟨col, hne⟩
    rw [htile] at hne
    by_contra hrow
    exact hne (if_neg fun h => hrow h.1)
  calc _ ≤ (evenRows g.rows.toNat n.toNat : Set ℕ).encard :=
        Set.encard_le_encard_of_injOn hmaps fun _ _ _ _ => UInt32.toNat_inj.mp
    _ = (evenRows g.rows.toNat n.toNat).card := Set.encard_coe_eq_coe_finsetCard _
    _ ≤ n.toNat := by exact_mod_cast card_evenRows_le g.rows.toNat n.toNat

/-- Gaps that are half a row apart hit each row twice, and the last one falls behind the grid. -/
example : evenRows 3 5 = {1, 2} := by decide +kernel

end Removing

end Grid

end Raceway
