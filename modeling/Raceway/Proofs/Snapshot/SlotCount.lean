import Mathlib
import Raceway.Proofs.GuardedExecution
import Raceway.Proofs.Snapshot.Checks
/-!
# The number of slots of a grid that is brought back

The number of slots, of rows and of columns are three numbers in the content of a snapshot. No check
compares them: the checksum is that of the payload, and the digest is that of the grid as it was
read. So every grid is brought back from some bytes, whether it is laid out or not, and one with too
few slots cannot be looked up everywhere.

## Main results

* `Raceway.Grid.guardedTile?_eq_ite`: where a look-up meets a guard.
* `Raceway.Grid.forall_guardedTile?_iff`: every place can be looked up if there are enough slots.
* `Raceway.Snapshot.decodeWith_safe_iff`: when a grid that is brought back can be looked up.
* `Raceway.Snapshot.decode_too_few_slots`: bytes from which too few slots are brought back.
-/

namespace Raceway

open Guarded

namespace Grid

variable {g : Grid} {row col : UInt32}

/-- A look-up meets a guard where the place is in the grid and has no slot. -/
theorem guardedTile?_eq_ite (g : Grid) (row col : UInt32) :
    g.guardedTile? row col =
      if g.inBounds row col ∧ g.slots.size ≤ g.index row col then
        .error (.place (g.index row col) g.slots.size)
      else .ok (g.tile? row col) := by
  rw [guardedTile?, tile?]
  by_cases hin : g.inBounds row col = true
  · rw [if_pos hin, if_pos hin, narrow_eq (index_lt_two_pow ..), ok_bind]
    by_cases hsize : g.slots.size ≤ g.index row col
    · rw [if_pos ⟨hin, hsize⟩, Array.getElem?_eq_none hsize]
      rfl
    · rw [if_neg fun h => hsize h.2, slotTile?, Array.getElem?_eq_getElem (not_le.mp hsize)]
      rfl
  · rw [if_neg hin, if_neg hin, if_neg fun h => hin h.1]
    rfl

/-- The place of a row and a column in the grid is below the product of both numbers. -/
theorem index_lt_mul (hin : g.inBounds row col = true) :
    g.index row col < g.rows.toNat * g.cols.toNat := by
  have hlt : (full g.rows g.cols).index row col < (full g.rows g.cols).slots.size :=
    Laid.index_lt (size_full g.rows g.cols) hin
  rwa [size_full] at hlt

/-- The last place of a grid. -/
theorem index_last (hrows : g.rows ≠ 0) (hcols : g.cols ≠ 0) :
    g.inBounds (g.rows - 1) (g.cols - 1) = true ∧
      g.index (g.rows - 1) (g.cols - 1) + 1 = g.rows.toNat * g.cols.toNat := by
  have hlast {n : UInt32} (hn : n ≠ 0) : (n - 1).toNat + 1 = n.toNat := by
    have hpos : 1 ≤ n.toNat := Nat.one_le_iff_ne_zero.mpr fun h => hn (UInt32.toNat_inj.mp h)
    have hle : 1 ≤ n := UInt32.le_iff_toNat_le.mpr hpos
    rw [UInt32.toNat_sub_of_le _ _ hle]
    exact Nat.sub_add_cancel hpos
  have hrow := hlast hrows
  have hcol := hlast hcols
  refine ⟨inBounds_iff.mpr ⟨UInt32.lt_iff_toNat_lt.mpr (by omega),
    UInt32.lt_iff_toNat_lt.mpr (by omega)⟩, ?_⟩
  rw [index, Nat.add_assoc, hcol, ← hrow, Nat.add_one_mul]

/-- Every row and column can be looked up if and only if there are enough slots. -/
theorem forall_guardedTile?_iff (g : Grid) :
    (∀ row col, ∃ tile, g.guardedTile? row col = .ok tile) ↔
      g.rows.toNat * g.cols.toNat ≤ g.slots.size := by
  constructor
  · intro h
    by_cases hempty : g.rows = 0 ∨ g.cols = 0
    · rcases hempty with hzero | hzero <;> simp [hzero]
    · obtain ⟨hrows, hcols⟩ := not_or.mp hempty
      obtain ⟨hin, hlast⟩ := index_last hrows hcols
      obtain ⟨tile, htile⟩ := h (g.rows - 1) (g.cols - 1)
      rw [guardedTile?_eq_ite] at htile
      split_ifs at htile with hguard
      have hlt := not_le.mp fun hsize => hguard ⟨hin, hsize⟩
      omega
  · intro h row col
    refine ⟨g.tile? row col, (guardedTile?_eq_ite ..).trans (if_neg fun ⟨hin, hsize⟩ => ?_)⟩
    exact absurd (index_lt_mul hin) (not_lt.mpr (h.trans hsize))

end Grid

namespace Snapshot

variable {c : Codec}

/-- A grid that is brought back can be looked up everywhere exactly if it has at least as many slots
as its rows and columns ask for. With exactly as many, it can be looked up, changed and removed from
everywhere, and no operation on it meets a guard. Whether it has as many is not checked: each grid is
brought back from some bytes. -/
theorem decodeWith_safe_iff (hc : c.Lawful) :
    (∀ (bytes : List UInt8) (s : Snapshot) (g : Grid),
      decodeWith c bytes = .ok s → s.grid = some g →
        ((∀ row col, ∃ tile, g.guardedTile? row col = .ok tile) ↔
          g.rows.toNat * g.cols.toNat ≤ g.slots.size) ∧
        (g.Laid → g.Accessible ∧
          ∀ params op stream, g.guardedAct params op stream = .ok (g.act params op stream))) ∧
    ∀ (plan : String) (g : Grid), ∃ bytes,
      decodeWith c bytes = .ok (capture (some g) plan) := by
  refine ⟨fun bytes s g _ _ => ⟨g.forall_guardedTile?_iff, fun hlaid => ?_⟩, fun plan g => ?_⟩
  · exact ⟨hlaid.accessible, hlaid.guardedAct_eq⟩
  · refine ⟨encodeWith c (capture (some g) plan), ?_⟩
    rw [decodeWith_encodeWith hc, check_capture]

/-- A grid of two rows and one column with one slot only is brought back, and cannot be looked up
everywhere. -/
theorem decodeWith_safe_iff_one_slot :
    let g : Grid := ⟨2, 1, 0, 0, #[none]⟩
    ∃ bytes s, decode bytes = .ok s ∧ s.grid = some g ∧
      ¬ ∀ row col, ∃ tile, g.guardedTile? row col = .ok tile := by
  intro g
  obtain ⟨hsafe, hall⟩ := decodeWith_safe_iff Codec.plain_lawful
  obtain ⟨bytes, hdecode⟩ := hall "" g
  refine ⟨bytes, capture (some g) "", hdecode, rfl, fun hlooked => ?_⟩
  have hslots : 2 * 1 ≤ 1 := (hsafe bytes _ g hdecode rfl).1.mp hlooked
  exact absurd hslots (by decide)

/-- A grid of 300 rows and one column with 241 slots is brought back, and its last row cannot be
looked up. -/
theorem decode_too_few_slots :
    let bytes : List UInt8 :=
      [0x54, 0x52, 0x4B, 0x53, 0x26, 0x12, 0xE8, 0xC4, 0x40, 0, 0, 0, 0xF0, 0x31, 0, 1, 0, 0, 0, 0,
        0, 0x44, 0x2D, 0x6D, 0x16, 1, 0, 0x2C, 1, 0, 0, 0, 1, 0, 0, 0, 0, 0, 0, 0, 0, 0, 0, 0, 0, 0,
        0xF1] ++ List.replicate 31 0
    let g : Grid := ⟨300, 1, 0, 0, Array.replicate 241 none⟩
    decode bytes = .ok ⟨1, "", 376253764, some g⟩ ∧ ¬ g.Laid ∧
      g.guardedTile? 299 0 = .error (.place 299 241) := by
  intro bytes g
  have hdigest : digestOf (some g) = 376253764 := by decide +kernel
  have hflags : g.slots.map Option.isSome = Array.replicate 241 false := Array.map_replicate
  have hbytes : bytes = encode ⟨1, "", 376253764, some g⟩ := by
    rw [encode, encodeWith, Codec.payload, Codec.plain]
    simp only [content, gridContent, hflags]
    decide +kernel
  have hsize : g.slots.size = 241 := Array.size_replicate
  refine ⟨?_, ?_, ?_⟩
  · rw [hbytes, decode, encode, decodeWith_encodeWith Codec.plain_lawful]
    exact check_eq_ok_iff.mpr ⟨rfl, by decide, hdigest.symm⟩
  · rw [Grid.Laid, hsize]
    decide
  · rw [Grid.guardedTile?_eq_ite, hsize]
    rfl

end Snapshot

end Raceway
