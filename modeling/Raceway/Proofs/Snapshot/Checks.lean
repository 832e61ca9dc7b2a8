import Mathlib
import Raceway.Proofs.Snapshot.RoundTrip
/-!
# What the checks of snapshots catch

The bytes of a snapshot are a mark, a checksum and a payload. A snapshot that is taken of a grid is
brought back from its bytes, with the grid bit for bit. Bytes of any length from which a snapshot is
brought back start with the mark and the checksum of what stands behind them, and the snapshot has a
known version and the digest of its grid; all other bytes are refused, each with the error of the
first check that they do not pass. All of this holds for every codec that reads back what it writes.

## Main results

* `Raceway.Snapshot.decodeWith_eq_ok_iff`: which bytes a snapshot is brought back from.
* `Raceway.Snapshot.decodeWith_encodeWith`: decoding the bytes of any snapshot checks it.
* `Raceway.Snapshot.decodeWith_checked`: snapshots survive their format, and damage is caught.
-/

namespace Raceway.Snapshot

variable {c : Codec} {s s' : Snapshot} {bytes payload : List UInt8}

/-! ### The check of what was read -/

theorem check_of_newer (h : newestVersion < s.version) :
    s.check = .error (.version newestVersion s.version) :=
  if_pos h

theorem check_of_digest_ne (hversion : s.version ≤ newestVersion)
    (h : s.digest ≠ digestOf s.grid) : s.check = .error (.checksum s.digest (digestOf s.grid)) := by
  rw [check, if_neg (UInt32.not_lt.mpr hversion), if_pos h.symm]

/-- A snapshot passes the check unchanged, if its version is known and its digest is that of its
grid. -/
theorem check_eq_ok_iff :
    s.check = .ok s' ↔ s = s' ∧ s.version ≤ newestVersion ∧ s.digest = digestOf s.grid := by
  by_cases hversion : s.version ≤ newestVersion
  · by_cases hdigest : s.digest = digestOf s.grid
    · rw [check, if_neg (UInt32.not_lt.mpr hversion), if_neg (not_not.mpr hdigest.symm),
        Except.ok.injEq]
      exact ⟨fun h => ⟨h, hversion, hdigest⟩, And.left⟩
    · rw [check_of_digest_ne hversion hdigest]
      exact iff_of_false nofun fun h => hdigest h.2.2
  · rw [check_of_newer (UInt32.not_le.mp hversion)]
    exact iff_of_false nofun fun h => hversion h.2.1

/-! ### The header -/

/-- Bytes that do not start with the mark, or end before the payload, have no header. -/
theorem decodeWith_of_noHeader (c : Codec) (h : bytes.take 4 ≠ mark ∨ bytes.length < 8) :
    decodeWith c bytes = .error (.decode .noHeader) := by
  unfold decodeWith
  split
  · rename_i m₀ m₁ m₂ m₃ b₀ b₁ b₂ b₃ payload
    refine if_pos (h.resolve_right ?_)
    simp only [List.length_cons]
    omega
  · rfl

/-- All other bytes are the mark, a word and a payload. -/
theorem eq_headed (hmark : bytes.take 4 = mark) (hlength : 8 ≤ bytes.length) :
    ∃ word, bytes = mark ++ Bytes.ofWord word ++ bytes.drop 8 := by
  match bytes, hlength with
  | m₀ :: m₁ :: m₂ :: m₃ :: b₀ :: b₁ :: b₂ :: b₃ :: payload, _ =>
    refine ⟨Bytes.toWord b₀ b₁ b₂ b₃, ?_⟩
    rw [← hmark, Bytes.ofWord_toWord]
    rfl

/-- In bytes that start with the mark, the word behind the mark has to be the checksum of the
payload. -/
theorem decodeWith_headed (c : Codec) (word : UInt32) (payload : List UInt8) :
    decodeWith c (mark ++ Bytes.ofWord word ++ payload) = decodePayload c word payload := by
  simp only [mark, Bytes.ofWord, List.cons_append, List.nil_append, decodeWith, Bytes.toWord_bytes,
    ne_eq, not_true_eq_false, if_false]

theorem decodePayload_of_ne {word : UInt32} (h : word ≠ checksum payload) :
    decodePayload c word payload = .error (.checksum word (checksum payload)) :=
  if_pos h.symm

theorem decodeWith_frame_of_none (h : c.ofPayload? payload = none) :
    decodeWith c (frame payload) = .error (.decode .content) := by
  rw [frame, decodeWith_headed, decodePayload, if_neg (not_not.mpr rfl), h]

/-- A payload with its own checksum in front has to hold a snapshot that passes the check. -/
theorem decodeWith_frame_of_some (h : c.ofPayload? payload = some s) :
    decodeWith c (frame payload) = s.check := by
  rw [frame, decodeWith_headed, decodePayload, if_neg (not_not.mpr rfl), h]

theorem frame_eq_iff :
    bytes = frame payload ↔
      bytes.take 4 = mark ∧ (bytes.drop 4).take 4 = Bytes.ofWord (checksum (bytes.drop 8)) ∧
        bytes.drop 8 = payload := by
  constructor
  · rintro rfl
    exact ⟨rfl, rfl, rfl⟩
  · rintro ⟨hmark, hword, rfl⟩
    rw [frame, ← hmark, ← hword, ← List.take_add, List.take_append_drop]

theorem decodeWith_frame_eq_ok_iff :
    decodeWith c (frame payload) = .ok s ↔
      c.ofPayload? payload = some s ∧ s.version ≤ newestVersion ∧ s.digest = digestOf s.grid := by
  cases hpayload : c.ofPayload? payload with
  | none =>
    rw [decodeWith_frame_of_none hpayload]
    exact iff_of_false nofun nofun
  | some read =>
    rw [decodeWith_frame_of_some hpayload, check_eq_ok_iff, Option.some.injEq]
    exact and_congr_right fun heq => by rw [heq]

/-- A snapshot is only brought back from a payload with its own checksum in front. -/
theorem eq_frame_of_decodeWith (h : decodeWith c bytes = .ok s) :
    bytes = frame (bytes.drop 8) := by
  by_cases hheader : bytes.take 4 = mark ∧ 8 ≤ bytes.length
  · obtain ⟨word, hbytes⟩ := eq_headed hheader.1 hheader.2
    by_cases hword : word = checksum (bytes.drop 8)
    · rwa [hword] at hbytes
    · rw [hbytes, decodeWith_headed, decodePayload_of_ne hword] at h
      cases h
  · rw [not_and_or, not_le] at hheader
    rw [decodeWith_of_noHeader c hheader] at h
    cases h

/-- A snapshot is brought back exactly from the bytes with the mark, the checksum of the payload and
a payload that holds the snapshot, if it passes the check. -/
theorem decodeWith_eq_ok_iff :
    decodeWith c bytes = .ok s ↔
      bytes.take 4 = mark ∧ (bytes.drop 4).take 4 = Bytes.ofWord (checksum (bytes.drop 8)) ∧
        c.ofPayload? (bytes.drop 8) = some s ∧
        s.version ≤ newestVersion ∧ s.digest = digestOf s.grid := by
  constructor
  · intro h
    have hbytes := eq_frame_of_decodeWith h
    obtain ⟨hmark, hword, -⟩ := frame_eq_iff.mp hbytes
    rw [hbytes, decodeWith_frame_eq_ok_iff] at h
    exact ⟨hmark, hword, h⟩
  · rintro ⟨hmark, hword, h⟩
    rw [frame_eq_iff.mpr ⟨hmark, hword, rfl⟩]
    exact decodeWith_frame_eq_ok_iff.mpr h

/-! ### Bytes that were written -/

/-- Decoding the bytes of any snapshot checks it. -/
theorem decodeWith_encodeWith (hc : c.Lawful) (s : Snapshot) :
    decodeWith c (encodeWith c s) = s.check :=
  decodeWith_frame_of_some (hc.ofPayload_payload s)

theorem check_capture (grid : Option Grid) (plan : String) :
    (capture grid plan).check = .ok (capture grid plan) :=
  check_eq_ok_iff.mpr ⟨rfl, UInt32.le_refl _, rfl⟩

/-- The checksum of bytes is the documented one. -/
theorem toBitVec_checksum (bytes : List UInt8) :
    (checksum bytes).toBitVec = Checksum.documented 0#32 bytes :=
  Checksum.toBitVec_xxh32 checksumSeed ⟨bytes.toArray⟩

/-- Snapshots survive their format, and damage is caught. The checksum and the digest are the
documented checksums of the bytes of the payload and of the grid. The snapshot of a grid, or of
none, is brought back with the grid from its bytes, whatever the bits of its tiles are. A snapshot
is brought back from bytes exactly if they start with the mark `TRKS` and the checksum of what
follows, the payload holds the snapshot, and the snapshot has a known version and the digest of its
grid. Bytes without a header, with another checksum, with a payload that holds no snapshot, with a
newer version or with another digest are refused, each with an error of its own. -/
theorem decodeWith_checked (hc : c.Lawful) :
    (∀ bytes : List UInt8, (checksum bytes).toBitVec = Checksum.documented 0#32 bytes) ∧
    (∀ grid : Option Grid, (digestOf grid).toBitVec =
      Checksum.documented 0x74726B31#32 (gridBytes grid).data.toList) ∧
    (∀ (grid : Option Grid) (plan : String),
      decodeWith c (encodeWith c (capture grid plan)) = .ok (capture grid plan) ∧
        (capture grid plan).grid = grid) ∧
    (∀ (bytes : List UInt8) (s : Snapshot), decodeWith c bytes = .ok s ↔
      bytes.take 4 = [0x54, 0x52, 0x4B, 0x53] ∧
        (bytes.drop 4).take 4 = Bytes.ofWord (checksum (bytes.drop 8)) ∧
        c.ofPayload? (bytes.drop 8) = some s ∧
        s.version ≤ newestVersion ∧ s.digest = digestOf s.grid) ∧
    (∀ bytes : List UInt8, bytes.take 4 ≠ mark ∨ bytes.length < 8 →
      decodeWith c bytes = .error (.decode .noHeader)) ∧
    ∀ payload : List UInt8,
      (∀ word, word ≠ checksum payload →
        decodeWith c (mark ++ Bytes.ofWord word ++ payload) =
          .error (.checksum word (checksum payload))) ∧
      (c.ofPayload? payload = none → decodeWith c (frame payload) = .error (.decode .content)) ∧
      ∀ s, c.ofPayload? payload = some s →
        (newestVersion < s.version →
          decodeWith c (frame payload) = .error (.version newestVersion s.version)) ∧
        (s.version ≤ newestVersion → s.digest ≠ digestOf s.grid →
          decodeWith c (frame payload) = .error (.checksum s.digest (digestOf s.grid))) := by
  refine ⟨toBitVec_checksum, toBitVec_digestOf, fun grid plan => ⟨?_, rfl⟩,
    fun bytes s => decodeWith_eq_ok_iff, fun bytes => decodeWith_of_noHeader c,
    fun payload => ⟨fun word hword => ?_, fun hnone => ?_,
      fun s hpayload => ⟨fun hversion => ?_, fun hversion hdigest => ?_⟩⟩⟩
  · rw [decodeWith_encodeWith hc, check_capture]
  · rw [decodeWith_headed, decodePayload_of_ne hword]
  · exact decodeWith_frame_of_none hnone
  · rw [decodeWith_frame_of_some hpayload, check_of_newer hversion]
  · rw [decodeWith_frame_of_some hpayload, check_of_digest_ne hversion hdigest]

/-- The codec that snapshots are kept with, a grid with a hole and a tile whose offsets are two
different words that stand for no number, bytes that are too short, a payload with a wrong checksum,
and a snapshot of a newer version. -/
theorem decodeWith_checked_plain :
    let g : Grid := ⟨2, 1, 0, 0, #[some ⟨⟨0xFFC00000⟩, ⟨0x7FC00001⟩⟩, none]⟩
    let s := capture (some g) "buildAbs(2,1)\n"
    decode s.encode = .ok s ∧ s.grid = some g ∧ s.digest = digestOf s.grid ∧
      decode [0x54, 0x52, 0x4B] = .error (.decode .noHeader) ∧
      decode (mark ++ Bytes.ofWord 7 ++ [1, 2, 3]) = .error (.checksum 7 (checksum [1, 2, 3])) ∧
      decode (encode { s with version := 2 }) = .error (.version 1 2) := by
  intro g s
  obtain ⟨-, -, hkept, hok, hshort, hrefused⟩ := decodeWith_checked Codec.plain_lawful
  have hnewer := Codec.plain_lawful.ofPayload_payload { s with version := 2 }
  obtain ⟨hdecode, hgrid⟩ := hkept (some g) "buildAbs(2,1)\n"
  obtain ⟨-, -, -, -, hdigest⟩ := (hok _ _).mp hdecode
  exact ⟨hdecode, hgrid, hdigest, hshort _ (.inr (by decide)),
    (hrefused [1, 2, 3]).1 7 (by decide +kernel),
    ((hrefused _).2.2 _ hnewer).1 (by decide)⟩

end Raceway.Snapshot
