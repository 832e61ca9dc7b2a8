import Raceway.Grid.Digest
import Raceway.Snapshot.Bytes
/-!
# Snapshots

A snapshot is a grid with the plan that it comes from and its digest. Its content is written as
bytes part by part. Nothing is assumed of the number of slots of a grid, so that any grid can be
written.

## Main definitions

* `Raceway.Snapshot`: a snapshot.
* `Raceway.Snapshot.capture`: the snapshot of a grid.
* `Raceway.Snapshot.content` and `Raceway.Snapshot.takeContent`: the content as bytes.
-/

namespace Raceway

/-- A grid with the plan that it comes from and its digest. -/
structure Snapshot where
  /-- The version of the format. -/
  version : UInt32
  /-- The text of the plan. -/
  plan : String
  /-- The digest of the grid. -/
  digest : UInt32
  /-- The grid, if there was one. -/
  grid : Option Grid

namespace Snapshot

/-- The newest version of the format. -/
def newestVersion : UInt32 := 1

/-- The snapshot of a grid. -/
def capture (grid : Option Grid) (plan : String) : Snapshot :=
  ⟨newestVersion, plan, digestOf grid, grid⟩

/-! ### The content as bytes -/

/-- The bytes of a word: a mark that no part of it is left out, and the word. -/
def wordContent (w : UInt32) : List UInt8 :=
  0 :: Bytes.ofWord w

/-- The bytes of the tile in a slot, none for an empty slot. -/
def slotBytes : Option Tile → List UInt8
  | some t => Bytes.ofWord t.lateral.bits ++ Bytes.ofWord t.height.bits
  | none => []

/-- The bytes of a grid: which slots hold a tile, and then the tiles. -/
def gridContent (g : Grid) : List UInt8 :=
  wordContent g.rows ++ wordContent g.cols ++ wordContent g.marginStart
    ++ wordContent g.marginEnd ++ Bytes.ofNat g.slots.size
    ++ Bytes.ofFlags (g.slots.map Option.isSome) ++ g.slots.toList.flatMap slotBytes

/-- The bytes of the content of a snapshot. -/
def content (s : Snapshot) : List UInt8 :=
  wordContent s.version ++ Bytes.ofText s.plan ++ wordContent s.digest
    ++ match s.grid with
      | some g => 1 :: gridContent g
      | none => [0]

/-- Take a word. -/
def takeWord : Bytes.Taker UInt32 := do
  match ← Bytes.byte with
  | 0 => Bytes.word
  | _ => failure

/-- Take a tile. -/
def takeTile : Bytes.Taker Tile := do
  let lateral ← Bytes.word
  let height ← Bytes.word
  return ⟨⟨lateral⟩, ⟨height⟩⟩

/-- Take the tiles of the slots that hold one. The slots go behind those taken before. -/
def takeSlots : List Bool → Array (Option Tile) → Bytes.Taker (Array (Option Tile))
  | [], slots => pure slots
  | true :: flags, slots => do takeSlots flags (slots.push (some (← takeTile)))
  | false :: flags, slots => takeSlots flags (slots.push none)

/-- Take a grid. -/
def takeGrid : Bytes.Taker Grid := do
  let rows ← takeWord
  let cols ← takeWord
  let marginStart ← takeWord
  let marginEnd ← takeWord
  let flags ← Bytes.flags (← Bytes.nat)
  return ⟨rows, cols, marginStart, marginEnd, ← takeSlots flags #[]⟩

/-- Take the content of a snapshot. -/
def takeContent : Bytes.Taker Snapshot := do
  let version ← takeWord
  let plan ← Bytes.text
  let digest ← takeWord
  match ← Bytes.byte with
  | 0 => return ⟨version, plan, digest, none⟩
  | 1 => return ⟨version, plan, digest, some (← takeGrid)⟩
  | _ => failure

end Snapshot

end Raceway
