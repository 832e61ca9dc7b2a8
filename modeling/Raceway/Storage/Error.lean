import Raceway.Disk.Error
import Raceway.Json.Reader
import Raceway.Text.Hex
/-!
# Errors of a storage

## Main definitions

* `Raceway.StoreError`: why something cannot be stored or brought back.
-/

namespace Raceway

/-- Why stored bytes cannot be read. -/
inductive DecodeFault where
  /-- They do not start like a snapshot. -/
  | noHeader
  /-- The content of a snapshot is not well formed. -/
  | content
  /-- An entry of a seed log is not well formed. -/
  | entry (number : Nat) (e : Json.ReadError)
  /-- Any other reason. -/
  | other (reason : String)

/-- The wording of a fault. -/
def DecodeFault.message : DecodeFault → String
  | noHeader => "not a track snapshot (missing TRKS header)"
  | content => "snapshot content is not well formed"
  | entry number e => s!"seed log entry {number}: {e.message}"
  | other reason => reason

/-- Why something cannot be stored or brought back. -/
inductive StoreError where
  /-- The file system refuses. -/
  | disk (e : DiskError)
  /-- It cannot be written down. -/
  | encode (reason : String)
  /-- What is stored cannot be read. -/
  | decode (fault : DecodeFault)
  /-- What is stored does not have the checksum that goes with it. -/
  | checksum (expected found : UInt32)
  /-- What is stored has a format that is newer than the newest one known. -/
  | version (newest found : UInt32)

/-- The wording of an error. -/
def StoreError.message : StoreError → String
  | disk e => s!"I/O error: {e.message}"
  | encode reason => s!"Encoding error: {reason}"
  | decode fault => s!"Decoding error: {fault.message}"
  | checksum expected found =>
    let expected := Text.hex 8 expected.toNat
    let found := Text.hex 8 found.toNat
    s!"Checksum mismatch: expected 0x{expected}, found 0x{found}"
  | version newest found =>
    let newest := newest.toNat
    s!"Version mismatch: data is v{found.toNat}, but this build only supports up to v{newest}"

end Raceway
