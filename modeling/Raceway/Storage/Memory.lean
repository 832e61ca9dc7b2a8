import Raceway.Storage.Basic
/-!
# A storage in memory

The plan and the seed log are kept in memory, and the saves are counted. Each action can be made to
fail; an action that fails leaves everything as it is.

## Main definitions

* `Raceway.Memory`: what is kept.
* `Raceway.Memory.Faults`: the actions that fail.
* `Raceway.Memory.storage`: the storage.
-/

namespace Raceway

/-- What a storage in memory keeps. -/
structure Memory where
  /-- The text of the plan. -/
  plan : Option String := none
  /-- The seed log. -/
  entries : List SeedEntry := []
  /-- The number of saves. -/
  saves : Nat := 0
deriving DecidableEq, Repr

namespace Memory

/-- The errors of the actions that fail. -/
structure Faults where
  /-- The error of loading. -/
  load : Option StoreError := none
  /-- The error of saving. -/
  save : Option StoreError := none
  /-- The error of recording a seed. -/
  record : Option StoreError := none

/-- An action, unless it is made to fail. -/
def unlessFault {α : Type} (fault : Option StoreError) (act : StateM Memory α) :
    StateM Memory (Except StoreError α) :=
  match fault with
  | some e => pure (.error e)
  | none => .ok <$> act

/-- A storage in memory that draws a fixed seed. -/
def storage (faults : Faults) (draw : SeedDraw) : Storage (StateM Memory) where
  load := unlessFault faults.load do return (← get).plan
  save text := unlessFault faults.save do
    modify fun mem => { mem with plan := some text, saves := mem.saves + 1 }
  record entry := unlessFault faults.record do
    modify fun mem => { mem with entries := mem.entries ++ [entry] }
  draw := pure draw

end Memory

end Raceway
