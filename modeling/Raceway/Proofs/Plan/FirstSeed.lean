import Mathlib
import Raceway.Proofs.Plan.BuildsFirst
/-!
# The seed that a plan is carried out with

The random stream of an execution starts from the first seed that is set in the plan. Merging a
request takes the first seed of the request, or else that of the plan it is appended to; a drawn seed
comes behind both, for a plan that draws random numbers and has neither. Expanding a plan, and
reading it back from its text, changes neither its first seed nor whether it draws.

## Main definitions

* `Raceway.Plan.firstSeed?`: the first seed that is set in a plan.

## Main results

* `Raceway.Plan.firstSeed?_amend`: the first seed of a merged plan.
* `Raceway.Plan.firstSeed?_withSeed` and `Raceway.Plan.hasSeed_withSeed`: a drawn seed.
* `Raceway.Plan.firstSeed?_expand` and `Raceway.Plan.hasRandom_expand`: expanding a plan.
-/

namespace Raceway

namespace Op

theorem seed?_eq_none_of_isSeed {op : Op Float} (h : op.isSeed = false) : op.seed? = none := by
  rwa [isSeed_eq, Option.isSome_eq_false_iff, Option.isNone_iff_eq_none] at h

theorem seed?_eq_none_of_isCreate {op : Op Float} (h : op.isCreate = true) : op.seed? = none :=
  seed?_eq_none_of_isSeed (isSeed_eq_false_of_isCreate h)

theorem seed?_mapNumbers (f : Float → Float) (op : Op Float) :
    (op.mapNumbers f).seed? = op.seed? := by
  cases op <;> rfl

end Op

namespace Plan

variable {plan : Plan Float}

/-- The first seed that is set in the plan. -/
def firstSeed? (plan : Plan Float) : Option UInt64 :=
  plan.findSome? Op.seed?

theorem seed_eq (plan : Plan Float) : plan.seed = plan.firstSeed?.getD defaultSeed :=
  rfl

theorem hasSeed_eq (plan : Plan Float) : plan.hasSeed = plan.firstSeed?.isSome := by
  rw [firstSeed?, List.isSome_findSome?, hasSeed]
  exact congrArg plan.any (funext Op.isSeed_eq)

/-- A plan that sets a seed is carried out with a seed that is one of its operations. -/
theorem seed_mem (h : plan.hasSeed = true) : .seed plan.seed ∈ plan := by
  rw [hasSeed_eq] at h
  obtain ⟨value, hvalue⟩ := Option.isSome_iff_exists.mp h
  rw [seed_eq, hvalue, Option.getD_some]
  obtain ⟨op, hop, hseed⟩ := List.exists_of_findSome?_eq_some hvalue
  cases op with
  | seed v => rwa [Option.some.inj hseed] at hop
  | _ => cases hseed

@[simp] theorem firstSeed?_cons (op : Op Float) (ops : Plan Float) :
    firstSeed? (op :: ops) = op.seed?.or ops.firstSeed? := by
  rw [firstSeed?, List.findSome?_cons]
  cases op.seed? <;> rfl

@[simp] theorem firstSeed?_append (a b : Plan Float) :
    firstSeed? (a ++ b) = a.firstSeed?.or b.firstSeed? :=
  List.findSome?_append

/-- Dropping anything but seeds keeps the first seed. -/
theorem firstSeed?_filter {p : Op Float → Bool} (hp : ∀ op, op.isSeed = true → p op = true)
    (plan : Plan Float) : firstSeed? (plan.filter p) = plan.firstSeed? := by
  induction plan with
  | nil => rfl
  | cons op plan ih =>
    rw [firstSeed?_cons, List.filter_cons]
    split_ifs with hop
    · rw [firstSeed?_cons, ih]
    · have hseed : op.isSeed = false := Bool.eq_false_iff.mpr fun h => hop (hp op h)
      rw [ih, Op.seed?_eq_none_of_isSeed hseed, Option.none_or]

theorem firstSeed?_eq_none (h : ∀ op ∈ plan, op.isSeed = false) : plan.firstSeed? = none :=
  List.findSome?_eq_none_iff.mpr fun op hop => Op.seed?_eq_none_of_isSeed (h op hop)

/-! ### Merging a request -/

/-- Moving the operation that creates the grid to the front keeps the first seed. -/
theorem CreatesFirst.firstSeed?_eq {default : Op Float} {ops : List (Op Float)}
    {synthesized : Bool} (h : CreatesFirst default ops plan synthesized)
    (hdefault : default.isCreate = true) : plan.firstSeed? = firstSeed? ops := by
  cases h with
  | moved hbefore hcreate after =>
    have hseed := Op.seed?_eq_none_of_isCreate hcreate
    rw [firstSeed?_cons, firstSeed?_append, firstSeed?_append, firstSeed?_cons, hseed,
      Option.none_or, Option.none_or]
  | synthesized hops =>
    rw [firstSeed?_cons, Op.seed?_eq_none_of_isCreate hdefault, Option.none_or]

/-- What is kept of a plan has its first seed, unless the request brings one. -/
theorem firstSeed?_keptFor (fresh plan : Plan Float) :
    (fresh.keptFor plan).firstSeed? = if fresh.hasSeed then none else plan.firstSeed? := by
  have hleft {op : Op Float} (h : op.isSeed = true) : op.isLeftOut fresh = fresh.hasSeed := by
    rw [Op.isLeftOut_of_isSpared (Op.isSpared_of_isSeed h), h, Bool.and_true]
    rfl
  split_ifs with hfresh
  · refine firstSeed?_eq_none fun op hop => Bool.eq_false_iff.mpr fun hseed => ?_
    have hkept := (mem_keptFor.mp hop).2
    rw [hleft hseed, hfresh] at hkept
    cases hkept
  · refine firstSeed?_filter (fun op hseed => ?_) plan
    rw [hleft hseed, Bool.eq_false_iff.mpr hfresh, Bool.not_false]

theorem firstSeed?_additions (fresh : Plan Float) :
    fresh.additions.firstSeed? = fresh.firstSeed? :=
  firstSeed?_filter (fun op h => by
    rw [Op.isFill_eq_false_of_isSpared (Op.isSpared_of_isSeed h), Bool.not_false]) fresh

/-- The first seed of a merged plan is that of the request, or else that of the plan to which the
request is appended. -/
theorem firstSeed?_amend (fresh : Plan Float) (creates : Bool) {default : Op Float}
    (hdefault : default.isCreate = true) (plan : Plan Float) :
    (plan.amend fresh creates default).plan.firstSeed? =
      fresh.firstSeed?.or (if creates then none else plan.firstSeed?) := by
  cases creates with
  | true =>
    rw [if_pos rfl, Option.or_none, ← firstSeed?_additions fresh]
    exact (createsFirst_createFirst default _).firstSeed?_eq hdefault
  | false =>
    rw [plan_amend_false, if_neg Bool.false_ne_true]
    have hmerged : firstSeed? (fresh.keptFor plan ++ fresh.additions) =
        fresh.firstSeed?.or plan.firstSeed? := by
      rw [firstSeed?_append, firstSeed?_keptFor, firstSeed?_additions, hasSeed_eq]
      cases fresh.firstSeed? with
      | none => exact Option.or_none
      | some value => rfl
    split_ifs with hempty
    · rw [firstSeed?_cons, Op.seed?_eq_none_of_isCreate hdefault, ← hmerged,
        List.isEmpty_iff.mp hempty]
      rfl
    · exact hmerged

/-! ### Drawing a seed -/

/-- A drawn seed comes into a plan that sets none. -/
theorem firstSeed?_withSeed (draw : SeedDraw) (plan : Plan Float) :
    (plan.withSeed draw).plan.firstSeed? =
      plan.firstSeed?.or ((plan.withSeed draw).entry.map (·.seed)) := by
  rw [withSeed]
  split_ifs with hneeds
  · have hseed : plan.firstSeed? = none := by
      rw [needsSeed, hasSeed_eq, Bool.and_eq_true, Bool.not_eq_true', Option.isSome_eq_false_iff,
        Option.isNone_iff_eq_none] at hneeds
      exact hneeds.2
    rw [hseed]
    rfl
  · exact Option.or_none.symm

/-- A plan that has got its seed sets one if it draws random numbers. -/
theorem hasSeed_withSeed (draw : SeedDraw) (plan : Plan Float)
    (h : (plan.withSeed draw).plan.hasRandom = true) :
    (plan.withSeed draw).plan.hasSeed = true := by
  rw [withSeed] at h ⊢
  split_ifs at h ⊢ with hneeds
  · rfl
  · rw [needsSeed, Bool.and_eq_true, Bool.not_eq_true'] at hneeds
    exact Bool.not_eq_false _ |>.mp fun hseed => hneeds ⟨h, hseed⟩

/-! ### Expanding and reading back -/

theorem expandOp_random_seed (default : UInt32) (layout : Layout Float) (op : Op Float) :
    hasRandom (expandOp default layout op).2 = op.isRandom ∧
      firstSeed? (expandOp default layout op).2 = op.seed? := by
  have hgaps {widths : List (UInt32 × UInt32)} {width : UInt32} :
      hasRandom (widths.map fun cut => (gap cut.2 width cut.1 : Op Float)) = false ∧
        firstSeed? (widths.map fun cut => gap cut.2 width cut.1) = none := by
    refine ⟨List.any_eq_false.mpr fun op hop => ?_, firstSeed?_eq_none fun op hop => ?_⟩ <;>
      obtain ⟨x, -, rfl⟩ := List.mem_map.mp hop
    · exact Bool.false_ne_true
    · rfl
  cases op with
  | fork a b gapStart gapEnd => exact hgaps
  | rejoin a b target => exact hgaps
  | _ => exact ⟨rfl, rfl⟩

theorem hasRandom_expand (plan : Plan Float) (default : UInt32) :
    (plan.expand default).1.hasRandom = plan.hasRandom := by
  suffices h : ∀ layout, (expandFrom default layout plan).1.hasRandom = plan.hasRandom from h _
  induction plan with
  | nil => exact fun _ => rfl
  | cons op plan ih =>
    intro layout
    rw [expandFrom, Track.hasRandom_cons, ← ih, ← (expandOp_random_seed default layout op).1]
    exact List.any_append

theorem firstSeed?_expand (plan : Plan Float) (default : UInt32) :
    (plan.expand default).1.firstSeed? = plan.firstSeed? := by
  suffices h : ∀ layout, (expandFrom default layout plan).1.firstSeed? = plan.firstSeed? from h _
  induction plan with
  | nil => exact fun _ => rfl
  | cons op plan ih =>
    intro layout
    rw [expandFrom, firstSeed?_append, ih, (expandOp_random_seed default layout op).2,
      firstSeed?_cons]

theorem firstSeed?_map_mapNumbers (f : Float → Float) (plan : Plan Float) :
    firstSeed? (plan.map (Op.mapNumbers f)) = plan.firstSeed? := by
  rw [firstSeed?, List.findSome?_map, firstSeed?]
  exact congrArg (List.findSome? · plan) (funext (Op.seed?_mapNumbers f))

end Plan

end Raceway
