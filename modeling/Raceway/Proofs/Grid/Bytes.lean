import Mathlib
import Raceway.Grid.Digest
import Raceway.Proofs.Checksum
/-!
# The bytes of a grid

A word is written with four bytes, and a slot with one byte or with nine, where the first byte tells
which. So the bytes of a grid can be read from the front in one way only: the four words of the
header first, and then slot after slot. Two grids are written alike only if they have the same
dimensions and margins, holes at the same slots, and tiles with the same bits at the others; and no
grid at all is written as no built grid is. The digest is the documented checksum of these bytes.

## Main definitions

* `Raceway.Grid.SameBits`: two grids have the same dimensions, margins and slots, where tiles are
  compared by their bits.

## Main results

* `Raceway.forall₂_of_flatMap_slotBytes`: slots that are written alike are the same, slot by slot.
* `Raceway.toBitVec_digestOf`: the digest is the documented checksum of the bytes.
* `Raceway.gridBytes_eq_iff`: what the bytes of a grid tell.
-/

namespace Raceway

/-! ### Words -/

/-- The bytes of a word, the low byte first. -/
def wordBytes (w : UInt32) : List UInt8 :=
  [w.toUInt8, (w >>> 8).toUInt8, (w >>> 16).toUInt8, (w >>> 24).toUInt8]

theorem toList_pushWord (bytes : ByteArray) (w : UInt32) :
    (pushWord bytes w).data.toList = bytes.data.toList ++ wordBytes w := by
  simp [pushWord, wordBytes, ByteArray.data_push]

/-- A word is the sum of its bytes, each with its weight. -/
theorem toNat_eq_bytes (w : UInt32) :
    w.toNat = w.toUInt8.toNat + 2 ^ 8 * (w >>> 8).toUInt8.toNat +
      2 ^ 16 * (w >>> 16).toUInt8.toNat + 2 ^ 24 * (w >>> 24).toUInt8.toNat := by
  have hlt : w.toNat < 2 ^ 32 := w.toNat_lt
  simp only [UInt32.toNat_toUInt8, UInt32.toNat_shiftRight, UInt32.reduceToNat, Nat.reduceMod,
    Nat.shiftRight_eq_div_pow]
  omega

theorem wordBytes_inj {v w : UInt32} (h : wordBytes v = wordBytes w) : v = w := by
  simp only [wordBytes, List.cons.injEq, and_true] at h
  obtain ⟨h₀, h₁, h₂, h₃⟩ := h
  rw [← UInt32.toNat_inj, toNat_eq_bytes v, toNat_eq_bytes w, h₀, h₁, h₂, h₃]

/-- A word in front of other bytes can be told from them. -/
theorem wordBytes_append_inj {v w : UInt32} {s t : List UInt8}
    (h : wordBytes v ++ s = wordBytes w ++ t) : v = w ∧ s = t := by
  obtain ⟨hword, hrest⟩ := List.append_inj h rfl
  exact ⟨wordBytes_inj hword, hrest⟩

/-! ### Slots -/

/-- Two tiles have the same bits. -/
structure Tile.SameBits (t u : Tile) : Prop where
  lateral : t.lateral.bits = u.lateral.bits
  height : t.height.bits = u.height.bits

/-- The bytes of a slot: a mark, and behind the one of a tile the bits of its offsets. -/
def slotBytes : Option Tile → List UInt8
  | some t => 1 :: (wordBytes t.lateral.bits ++ wordBytes t.height.bits)
  | none => [0]

theorem toList_pushSlot (bytes : ByteArray) (slot : Option Tile) :
    (pushSlot bytes slot).data.toList = bytes.data.toList ++ slotBytes slot := by
  cases slot <;> simp [pushSlot, slotBytes, toList_pushWord, ByteArray.data_push]

theorem slotBytes_congr {a b : Option Tile} (h : Option.Rel Tile.SameBits a b) :
    slotBytes a = slotBytes b := by
  cases h with
  | some h => simp only [slotBytes, h.lateral, h.height]
  | none => rfl

/-- A slot in front of other bytes can be told from them: its mark tells how many bytes it has. -/
theorem slotBytes_append_inj {a b : Option Tile} {s t : List UInt8}
    (h : slotBytes a ++ s = slotBytes b ++ t) : Option.Rel Tile.SameBits a b ∧ s = t := by
  cases a with
  | none =>
    cases b with
    | none => exact ⟨.none, List.append_cancel_left h⟩
    | some u => simp [slotBytes] at h
  | some t₁ =>
    cases b with
    | none => simp [slotBytes] at h
    | some t₂ =>
      simp only [slotBytes, List.cons_append, List.append_assoc, List.cons.injEq, true_and] at h
      obtain ⟨hlateral, h⟩ := wordBytes_append_inj h
      obtain ⟨hheight, h⟩ := wordBytes_append_inj h
      exact ⟨.some ⟨hlateral, hheight⟩, h⟩

theorem slotBytes_ne_nil (slot : Option Tile) : slotBytes slot ≠ [] := by
  cases slot <;> simp [slotBytes]

/-- Slots that are written alike are the same, slot by slot. -/
theorem forall₂_of_flatMap_slotBytes {l m : List (Option Tile)}
    (h : l.flatMap slotBytes = m.flatMap slotBytes) :
    List.Forall₂ (Option.Rel Tile.SameBits) l m := by
  induction l generalizing m with
  | nil =>
    cases m with
    | nil => exact .nil
    | cons b m => simp [slotBytes_ne_nil] at h
  | cons a l ih =>
    cases m with
    | nil => simp [slotBytes_ne_nil] at h
    | cons b m =>
      rw [List.flatMap_cons, List.flatMap_cons] at h
      obtain ⟨hslot, hrest⟩ := slotBytes_append_inj h
      exact .cons hslot (ih hrest)

theorem flatMap_slotBytes_congr {l m : List (Option Tile)}
    (h : List.Forall₂ (Option.Rel Tile.SameBits) l m) :
    l.flatMap slotBytes = m.flatMap slotBytes := by
  induction h with
  | nil => rfl
  | cons hslot _ ih => rw [List.flatMap_cons, List.flatMap_cons, slotBytes_congr hslot, ih]

/-! ### Grids -/

namespace Grid

/-- Two grids have the same dimensions and margins, and slot by slot both have a hole, or both have
a tile with the same bits. -/
structure SameBits (g h : Grid) : Prop where
  rows : g.rows = h.rows
  cols : g.cols = h.cols
  marginStart : g.marginStart = h.marginStart
  marginEnd : g.marginEnd = h.marginEnd
  slots : List.Forall₂ (Option.Rel Tile.SameBits) g.slots.toList h.slots.toList

theorem toList_foldl_pushSlot (l : List (Option Tile)) (bytes : ByteArray) :
    (l.foldl pushSlot bytes).data.toList = bytes.data.toList ++ l.flatMap slotBytes := by
  induction l generalizing bytes with
  | nil => simp
  | cons slot l ih =>
    rw [List.foldl_cons, ih, toList_pushSlot, List.append_assoc, List.flatMap_cons]

/-- The bytes of a grid, with the four words of the header in front. -/
theorem toList_bytes (g : Grid) :
    g.bytes.data.toList = wordBytes g.rows ++ (wordBytes g.cols ++ (wordBytes g.marginStart ++
      (wordBytes g.marginEnd ++ g.slots.toList.flatMap slotBytes))) := by
  rw [bytes, ← Array.foldl_toList, toList_foldl_pushSlot]
  simp [headerBytes, toList_pushWord]

theorem bytes_eq_iff {g h : Grid} : g.bytes = h.bytes ↔ g.SameBits h := by
  rw [ByteArray.ext_iff, ← Array.toList_inj, toList_bytes, toList_bytes]
  constructor
  · intro heq
    obtain ⟨hrows, heq⟩ := wordBytes_append_inj heq
    obtain ⟨hcols, heq⟩ := wordBytes_append_inj heq
    obtain ⟨hstart, heq⟩ := wordBytes_append_inj heq
    obtain ⟨hend, heq⟩ := wordBytes_append_inj heq
    exact ⟨hrows, hcols, hstart, hend, forall₂_of_flatMap_slotBytes heq⟩
  · intro hsame
    rw [hsame.rows, hsame.cols, hsame.marginStart, hsame.marginEnd,
      flatMap_slotBytes_congr hsame.slots]

/-- A built grid is written with at least the bytes of its header. -/
theorem bytes_ne_empty (g : Grid) : g.bytes ≠ ByteArray.empty := by
  intro h
  have hlist := congrArg (fun bytes : ByteArray => bytes.data.toList) h
  simp [toList_bytes, wordBytes] at hlist

end Grid

theorem gridBytes_congr_iff (g h : Option Grid) :
    gridBytes g = gridBytes h ↔ Option.Rel Grid.SameBits g h := by
  cases g with
  | none =>
    cases h with
    | none => exact ⟨fun _ => .none, fun _ => rfl⟩
    | some h =>
      exact ⟨fun heq => absurd heq.symm h.bytes_ne_empty, by rintro ⟨⟩⟩
  | some g =>
    cases h with
    | none => exact ⟨fun heq => absurd heq g.bytes_ne_empty, by rintro ⟨⟩⟩
    | some h =>
      rw [Option.rel_some_some]
      exact Grid.bytes_eq_iff

/-- The digest of a grid, or of none, is the documented checksum of its bytes. -/
theorem toBitVec_digestOf (g : Option Grid) :
    (digestOf g).toBitVec = Checksum.documented 0x74726B31#32 (gridBytes g).data.toList :=
  Checksum.toBitVec_xxh32 digestSeed (gridBytes g)

/-- Known digests: of no grid, and of a grid of two rows with a tile that leans to the right and a
hole. -/
example : digestOf none = 2590207173 ∧
    digestOf (some ⟨2, 1, 0, 0, #[some ⟨⟨0x401CE083⟩, ⟨0⟩⟩, none]⟩) = 1569588925 := by
  decide +kernel

/-- The bytes that the digest is made of identify a grid up to the bits of its tiles: two of them
are the same only for no grid and no grid, or for two grids with the same dimensions, the same
margins and the same slots. That a grid has as many slots as its dimensions say is not needed. The
digest is the documented checksum of these bytes. -/
theorem gridBytes_eq_iff (g h : Option Grid) :
    (gridBytes g = gridBytes h ↔ Option.Rel Grid.SameBits g h) ∧
      (digestOf g).toBitVec = Checksum.documented 0x74726B31#32 (gridBytes g).data.toList :=
  ⟨gridBytes_congr_iff g h, toBitVec_digestOf g⟩

end Raceway
