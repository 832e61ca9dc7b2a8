import Raceway.Plan.Seeding
import Raceway.Storage.Error
/-!
# Storages

A storage keeps the text of the plan, and a log of the seeds that were drawn; it also draws them.
What these actions do depends on where the storage is, which is what the monad stands for.

## Main definitions

* `Raceway.Storage`: the actions of a storage.
* `Raceway.Storage.seeded`: a plan with a seed drawn for it, if it needs one.
-/

namespace Raceway

/-- The actions of a storage. -/
structure Storage (m : Type → Type) where
  /-- Bring back the text of the plan, if there is one. -/
  load : m (Except StoreError (Option String))
  /-- Put a text in the place of the plan. -/
  save : String → m (Except StoreError Unit)
  /-- Add an entry to the seed log. -/
  record : SeedEntry → m (Except StoreError Unit)
  /-- Draw a seed. -/
  draw : m SeedDraw

namespace Storage

variable {m : Type → Type} [Monad m] {α : Type}

/-- The plan with a seed drawn for it, if it needs one. No seed is drawn for another plan. -/
def seeded (storage : Storage m) (plan : Plan α) : m (Seeded α) :=
  if plan.needsSeed then plan.withSeed <$> storage.draw else pure ⟨plan, none⟩

/-- Add the entry of a drawn seed to the seed log. The entry comes back with the error if that
fails. -/
def recordDrawn (storage : Storage m) : Option SeedEntry → m (Option (SeedEntry × StoreError))
  | none => pure none
  | some entry => do
    match ← storage.record entry with
    | .ok () => return none
    | .error e => return some (entry, e)

end Storage

end Raceway
