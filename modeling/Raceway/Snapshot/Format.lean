import Raceway.Disk.Basic
import Raceway.Snapshot.Basic
import Raceway.Storage.Error
/-!
# The format of snapshots

A snapshot is written as the mark `TRKS`, the checksum of all bytes that follow the checksum itself,
and its content in packed form. On reading, the checksum, the version and the digest of the grid are
compared. How the content is written and packed is up to a codec; nothing else depends on it.

## Main definitions

* `Raceway.Snapshot.Codec`: how snapshots are written and packed.
* `Raceway.Snapshot.encodeWith` and `Raceway.Snapshot.decodeWith`: a snapshot as bytes, with any
  codec.
* `Raceway.Snapshot.encode` and `Raceway.Snapshot.decode`: a snapshot as bytes, with the codec that
  snapshots are kept with.
* `Raceway.Disk.saveSnapshot` and `Raceway.Disk.readSnapshot`: a snapshot in a file.
-/

namespace Raceway

namespace Snapshot

/-- The bytes that a snapshot starts with. -/
def mark : List UInt8 := [0x54, 0x52, 0x4B, 0x53]

/-- The seed of the checksum. -/
def checksumSeed : UInt32 := 0

/-- The checksum of bytes. -/
def checksum (bytes : List UInt8) : UInt32 :=
  Checksum.xxh32 checksumSeed ⟨bytes.toArray⟩

/-- How snapshots are written down: as bytes, which are then packed. -/
structure Codec where
  /-- The bytes of a snapshot. -/
  write : Snapshot → List UInt8
  /-- The snapshot that bytes hold. -/
  read? : List UInt8 → Option Snapshot
  /-- Bytes in packed form. -/
  pack : List UInt8 → List UInt8
  /-- The bytes that are packed. -/
  unpack? : List UInt8 → Option (List UInt8)

namespace Codec

/-- The codec that snapshots are kept with: the content part by part, packed as it is. -/
def plain : Codec :=
  ⟨content, Bytes.whole takeContent, Bytes.pack, Bytes.unpack?⟩

variable (c : Codec)

/-- The packed bytes of a snapshot. -/
def payload (s : Snapshot) : List UInt8 :=
  c.pack (c.write s)

/-- The snapshot that a payload holds. -/
def ofPayload? (payload : List UInt8) : Option Snapshot := do
  c.read? (← c.unpack? payload)

end Codec

/-- A payload with the mark and its checksum in front. -/
def frame (payload : List UInt8) : List UInt8 :=
  mark ++ Bytes.ofWord (checksum payload) ++ payload

/-- The bytes of a snapshot, written with a codec. -/
def encodeWith (c : Codec) (s : Snapshot) : List UInt8 :=
  frame (c.payload s)

/-- Compare the version and the digest of the grid. -/
def check (s : Snapshot) : Except StoreError Snapshot :=
  if s.version > newestVersion then .error (.version newestVersion s.version)
  else if digestOf s.grid ≠ s.digest then .error (.checksum s.digest (digestOf s.grid))
  else .ok s

/-- The snapshot that a payload with the given checksum holds. -/
def decodePayload (c : Codec) (expected : UInt32) (payload : List UInt8) :
    Except StoreError Snapshot :=
  if checksum payload ≠ expected then .error (.checksum expected (checksum payload))
  else
    match c.ofPayload? payload with
    | some s => s.check
    | none => .error (.decode .content)

/-- The snapshot that bytes hold which are written with a codec. -/
def decodeWith (c : Codec) : List UInt8 → Except StoreError Snapshot
  | m₀ :: m₁ :: m₂ :: m₃ :: b₀ :: b₁ :: b₂ :: b₃ :: payload =>
    if [m₀, m₁, m₂, m₃] ≠ mark then .error (.decode .noHeader)
    else decodePayload c (Bytes.toWord b₀ b₁ b₂ b₃) payload
  | _ => .error (.decode .noHeader)

/-- The bytes of a snapshot. -/
def encode (s : Snapshot) : List UInt8 :=
  encodeWith .plain s

/-- The snapshot that bytes hold. -/
def decode (bytes : List UInt8) : Except StoreError Snapshot :=
  decodeWith .plain bytes

end Snapshot

/-! ### Files -/

namespace Disk

variable {m : Type → Type} [Monad m]

/-- Put a snapshot in the place of a file. -/
def saveSnapshot (disk : Disk m) (p : Path) (s : Snapshot) : m (Except StoreError Unit) := do
  return (← disk.replace p ⟨s.encode.toArray⟩).mapError .disk

/-- The snapshot in a file. -/
def readSnapshot (disk : Disk m) (p : Path) : m (Except StoreError Snapshot) := do
  match ← disk.read p with
  | .ok bytes => return Snapshot.decode bytes.data.toList
  | .error e => return .error (.disk e)

end Disk

end Raceway
