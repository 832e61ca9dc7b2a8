import Mathlib
import Raceway.Proofs.Grid.Bytes
import Raceway.Snapshot.Format
/-!
# Snapshots are read back

A taker that starts in front of a written value takes that value off, and leaves what stands behind
it. So the content of a snapshot is read back part by part: words by their four bytes, texts and
slots by their number, the slots that hold a tile by their flags, and the offsets of a tile by their
bits. Packed bytes are unpacked again. The codec that snapshots are kept with is therefore lawful:
it reads every snapshot back, whatever its grid is.

## Main definitions

* `Raceway.Snapshot.Codec.Lawful`: a codec that reads back what it writes.

## Main results

* `Raceway.Snapshot.takeContent_content_append`: the content of a snapshot is read back.
* `Raceway.Bytes.unpack_pack`: packed bytes are unpacked again.
* `Raceway.Snapshot.Codec.plain_lawful`: the codec that snapshots are kept with is lawful.
-/

namespace Raceway

namespace Bytes

variable {α β : Type} {t : Taker α} {f : α → Taker β} {a : α} {s u : List UInt8}

/-- Once a value is taken, the rest goes on behind it. -/
theorem bind_of_eq (h : t s = some (a, u)) : (t >>= f) s = f a u := by
  change (t s >>= fun p => f p.1 p.2) = f a u
  rw [h]
  rfl

/-! ### Words -/

/-- A word is the word of its bytes. -/
theorem toWord_bytes (w : UInt32) :
    toWord w.toUInt8 (w >>> 8).toUInt8 (w >>> 16).toUInt8 (w >>> 24).toUInt8 = w := by
  rw [← UInt32.toNat_inj, toNat_toWord, ← toNat_eq_bytes]

theorem word_ofWord_append (w : UInt32) (rest : List UInt8) :
    word (ofWord w ++ rest) = some (w, rest) := by
  simp only [ofWord, List.cons_append, List.nil_append, word, toWord_bytes]

/-- Four bytes are the bytes of their word. -/
theorem ofWord_toWord (b₀ b₁ b₂ b₃ : UInt8) : ofWord (toWord b₀ b₁ b₂ b₃) = [b₀, b₁, b₂, b₃] := by
  have h₀ := b₀.toNat_lt
  have h₁ := b₁.toNat_lt
  have h₂ := b₂.toNat_lt
  have h₃ := b₃.toNat_lt
  simp only [ofWord, List.cons.injEq, and_true, ← UInt8.toNat_inj, UInt32.toNat_toUInt8,
    UInt32.toNat_shiftRight, UInt32.reduceToNat, Nat.reduceMod, Nat.shiftRight_eq_div_pow,
    toNat_toWord]
  omega

/-! ### Texts -/

theorem take_append (front rest : List UInt8) :
    take front.length (front ++ rest) = some (front, rest) := by
  simp [take, List.splitAt_eq]

theorem text_ofText_append (s : String) (rest : List UInt8) :
    text (ofText s ++ rest) = some (s, rest) := by
  have hutf8 : String.fromUTF8? ⟨s.toUTF8.data.toList.toArray⟩ = some s := dif_pos s.isValidUTF8
  rw [text, ofText, List.append_assoc, bind_of_eq (nat_ofNat_append ..),
    bind_of_eq (take_append ..), hutf8]
  rfl

/-! ### Flags -/

theorem testBit_ofEight (flag : ℕ → Bool) {k : ℕ} (hk : k < 8) :
    (ofEight flag).toNat.testBit k = flag k := by
  rw [UInt8.toNat, ofEight, BitVec.testBit_toNat, BitVec.getLsbD_ofBoolListLE]
  interval_cases k <;> rfl

theorem length_ofFlags (a : Array Bool) : (ofFlags a).length = (a.size + 7) / 8 := by
  rw [ofFlags, List.length_map, List.length_range]

theorem flagAt_ofFlags (a : Array Bool) {i : ℕ} (hi : i < a.size) :
    flagAt (ofFlags a).toArray i = a[i] := by
  have hbyte : i / 8 < (a.size + 7) / 8 := by omega
  have hat : (ofFlags a).toArray.getD (i / 8) 0 =
      ofEight fun k => a.getD (8 * (i / 8) + k) false := by
    simp [Array.getD, hbyte, ofFlags]
  rw [flagAt, hat, testBit_ofEight _ (Nat.mod_lt i (by decide)), Nat.div_add_mod]
  simp [hi]

theorem flags_ofFlags_append (a : Array Bool) (rest : List UInt8) :
    flags a.size (ofFlags a ++ rest) = some (a.toList, rest) := by
  have hall : (List.range a.size).map (flagAt (ofFlags a).toArray) = a.toList :=
    List.ext_getElem (by simp) fun i hi _ => by
      rw [List.length_map, List.length_range] at hi
      simp [flagAt_ofFlags a hi]
  rw [flags, ← length_ofFlags, bind_of_eq (take_append ..), hall]
  rfl

/-! ### Packed bytes -/

theorem run_runMark_append (n : ℕ) (rest : List UInt8) :
    run (runMark n ++ rest) = some (n, rest) := by
  rw [runMark]
  split_ifs with h
  · have hmark : (UInt8.ofNat (16 * n)).toNat = 16 * n := by
      rw [UInt8.toNat_ofNat']
      omega
    have hshort : UInt8.ofNat (16 * n) ≠ 0xF0 := fun hlong => by
      have := congrArg UInt8.toNat hlong
      rw [hmark] at this
      simp at this
      omega
    have htaken : byte (UInt8.ofNat (16 * n) :: rest) = some (UInt8.ofNat (16 * n), rest) := rfl
    rw [List.singleton_append, run, bind_of_eq htaken, if_neg hshort, hmark,
      if_pos (Nat.mul_mod_right 16 n), Nat.mul_div_cancel_left n (by decide)]
    rfl
  · have htaken (l : List UInt8) : byte (0xF0 :: l) = some (0xF0, l) := rfl
    rw [List.cons_append, run, bind_of_eq (htaken _), if_pos rfl,
      bind_of_eq (nat_ofNat_append ..), Nat.add_sub_cancel' (not_lt.mp h)]
    rfl

/-- Packed bytes are unpacked again. -/
theorem unpack_pack (bytes : List UInt8) : unpack? (pack bytes) = some bytes := by
  rw [unpack?, pack, List.append_assoc, word_ofWord_append]
  change (run _ >>= _) = _
  rw [run_runMark_append]
  exact if_pos ⟨rfl, rfl⟩

/-- A value that stands alone is the whole value. -/
theorem whole_of_append (h : ∀ rest, t (s ++ rest) = some (a, rest)) : whole t s = some a := by
  have hs := h []
  rw [List.append_nil] at hs
  rw [whole, hs]

end Bytes

/-! ### Snapshots -/

namespace Snapshot

open Bytes

theorem takeWord_wordContent_append (w : UInt32) (rest : List UInt8) :
    takeWord (wordContent w ++ rest) = some (w, rest) :=
  word_ofWord_append w rest

theorem takeTile_append (t : Tile) (rest : List UInt8) :
    takeTile (slotBytes (some t) ++ rest) = some (t, rest) := by
  rw [takeTile, slotBytes, List.append_assoc, bind_of_eq (word_ofWord_append ..),
    bind_of_eq (word_ofWord_append ..)]
  rfl

/-- The flags of slots tell which of them a tile is taken for. -/
theorem takeSlots_append (slots : List (Option Tile)) (before : Array (Option Tile))
    (rest : List UInt8) :
    takeSlots (slots.map Option.isSome) before (slots.flatMap slotBytes ++ rest) =
      some (before ++ slots.toArray, rest) := by
  induction slots generalizing before with
  | nil => simp [takeSlots, pure, StateT.pure]
  | cons slot slots ih =>
    rw [List.map_cons, List.flatMap_cons, List.append_assoc]
    cases slot with
    | some t =>
      rw [Option.isSome_some, takeSlots, bind_of_eq (takeTile_append ..), ih]
      simp
    | none =>
      rw [Option.isSome_none, takeSlots, slotBytes, List.nil_append, ih]
      simp

theorem takeGrid_gridContent_append (g : Grid) (rest : List UInt8) :
    takeGrid (gridContent g ++ rest) = some (g, rest) := by
  have hflags := flags_ofFlags_append (g.slots.map Option.isSome)
    (g.slots.toList.flatMap slotBytes ++ rest)
  have hslots := takeSlots_append g.slots.toList #[] rest
  rw [Array.size_map, Array.toList_map] at hflags
  simp only [gridContent, List.append_assoc]
  rw [takeGrid, bind_of_eq (takeWord_wordContent_append ..),
    bind_of_eq (takeWord_wordContent_append ..), bind_of_eq (takeWord_wordContent_append ..),
    bind_of_eq (takeWord_wordContent_append ..), bind_of_eq (nat_ofNat_append ..),
    bind_of_eq hflags, bind_of_eq hslots]
  simp [pure, StateT.pure]

/-- The content of a snapshot is read back. -/
theorem takeContent_content_append (s : Snapshot) (rest : List UInt8) :
    takeContent (content s ++ rest) = some (s, rest) := by
  obtain ⟨version, plan, digest, grid⟩ := s
  have htaken (b : UInt8) (l : List UInt8) : byte (b :: l) = some (b, l) := rfl
  simp only [content, List.append_assoc]
  rw [takeContent, bind_of_eq (takeWord_wordContent_append ..), bind_of_eq (text_ofText_append ..),
    bind_of_eq (takeWord_wordContent_append ..)]
  cases grid with
  | none => rfl
  | some g =>
    dsimp only
    rw [List.cons_append, bind_of_eq (htaken ..)]
    exact bind_of_eq (takeGrid_gridContent_append g rest)

/-- A codec that reads back what it writes. -/
structure Codec.Lawful (c : Codec) : Prop where
  /-- A snapshot is read back. -/
  read_write (s : Snapshot) : c.read? (c.write s) = some s
  /-- Packed bytes are unpacked again. -/
  unpack_pack (bytes : List UInt8) : c.unpack? (c.pack bytes) = some bytes

/-- The payload of a snapshot holds it. -/
theorem Codec.Lawful.ofPayload_payload {c : Codec} (hc : c.Lawful) (s : Snapshot) :
    c.ofPayload? (c.payload s) = some s := by
  rw [ofPayload?, payload, hc.unpack_pack]
  exact hc.read_write s

/-- The codec that snapshots are kept with is lawful. -/
theorem Codec.plain_lawful : plain.Lawful where
  read_write s := whole_of_append (takeContent_content_append s)
  unpack_pack := Bytes.unpack_pack

end Snapshot

end Raceway
