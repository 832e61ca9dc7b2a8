import Raceway.Plan.Basic
/-!
# Seeding a plan

A plan that draws random numbers carries the seed of its random stream, so that carrying it out
again gives the same track. One that has none gets a drawn seed in front.

## Main definitions

* `Raceway.SeedEntry`: the record of a drawn seed.
* `Raceway.Plan.withSeed`: the plan with a seed.
-/

namespace Raceway

variable {α : Type}

/-- A seed on offer, and the time of the offer in seconds. -/
structure SeedDraw where
  /-- The seed. -/
  seed : UInt64
  /-- The time. -/
  timestamp : UInt64
deriving DecidableEq, Repr

/-- The record of a drawn seed. -/
structure SeedEntry where
  /-- The time, in seconds. -/
  timestamp : UInt64
  /-- The seed. -/
  seed : UInt64
  /-- Why it was drawn. -/
  reason : String
deriving DecidableEq, Repr

/-- A plan with the record of the seed that was drawn for it. -/
structure Seeded (α : Type) where
  /-- The plan. -/
  plan : Plan α
  /-- The record, if a seed was drawn. -/
  entry : Option SeedEntry

/-- The seed without its top bit, so that a plan line can write it. -/
def lineSeed (seed : UInt64) : UInt64 :=
  seed &&& 0x7FFFFFFFFFFFFFFF

namespace Plan

/-- Why a seed is drawn for the plan: the names of its random operations. -/
def seedReason (plan : Plan α) : String :=
  let names := String.intercalate ", " ((plan.filter Op.isRandom).map (·.verb.name))
  s!"plan uses {names} without a seed"

/-- The plan draws random numbers and sets no seed. -/
def needsSeed (plan : Plan α) : Bool :=
  plan.hasRandom && !plan.hasSeed

/-- The plan, with the drawn seed in front if it needs one. -/
def withSeed (plan : Plan α) (draw : SeedDraw) : Seeded α :=
  if plan.needsSeed then
    let seed := lineSeed draw.seed
    ⟨.seed seed :: plan, some ⟨draw.timestamp, seed, plan.seedReason⟩⟩
  else ⟨plan, none⟩

end Plan

end Raceway
