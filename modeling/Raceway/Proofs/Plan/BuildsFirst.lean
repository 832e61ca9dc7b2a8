import Mathlib
import Raceway.Plan.Seeding
import Raceway.Proofs.Execution
import Raceway.Proofs.Plan.Expansion
import Raceway.Proofs.Plan.Merging
import Raceway.Proofs.Plan.RoundTrip
/-!
# Plans that build first

A plan that builds a grid before it does anything else, apart from setting seeds, leads to a track
that does not depend on the track at the start. A plan that never builds a grid leaves a track
without one alone. All that happens to a plan between two requests keeps it of one of these two
kinds: reading it back, merging a request into it, giving it a seed, and expanding it.

## Main definitions

* `Raceway.Plan.BuildsFirst`: the plan builds a grid before it does anything else.
* `Raceway.Plan.Governs`: the plan decides what becomes of a grid.

## Main results

* `Raceway.Track.executeFrom_eq_of_buildsFirst`: what a plan that builds first leads to does not
  depend on the track at the start.
* `Raceway.Plan.Governs.amend`: merging a request keeps a plan that governs the grid.
* `Raceway.Plan.Governs.execute_expand` and `Raceway.Plan.Governs.execute_eq`: such a plan governs
  the grid that it leads to, which is the one that it builds from nothing.
-/

namespace Raceway

namespace Op

theorem isSeed_eq_false_of_isCreate {op : Op Float} (h : op.isCreate = true) :
    op.isSeed = false := by
  obtain ⟨rows, cols, rfl⟩ := exists_build_of_isCreate h
  rfl

end Op

namespace Plan

/-- The plan builds a grid before it does anything else, apart from setting seeds. -/
inductive BuildsFirst : Plan Float → Prop
  /-- It builds at once. -/
  | build (rows cols : UInt32) (rest : Plan Float) : BuildsFirst (.build rows cols :: rest)
  /-- It sets a seed and then builds first. -/
  | seed (value : UInt64) {rest : Plan Float} (h : BuildsFirst rest) :
    BuildsFirst (.seed value :: rest)

/-- The plan decides what becomes of a grid: it builds first, or there is no grid and it builds
none. -/
def Governs (plan : Plan Float) (grid : Option Grid) : Prop :=
  plan.BuildsFirst ∨ plan.any Op.isCreate = false ∧ grid = none

variable {plan : Plan Float}

theorem buildsFirst_of_isCreate {op : Op Float} (h : op.isCreate = true) (rest : Plan Float) :
    BuildsFirst (op :: rest) := by
  obtain ⟨rows, cols, rfl⟩ := Op.exists_build_of_isCreate h
  exact .build rows cols rest

namespace BuildsFirst

theorem append (h : plan.BuildsFirst) (more : Plan Float) : BuildsFirst (plan ++ more) := by
  induction h with
  | build rows cols rest => exact .build rows cols _
  | seed value h ih => exact .seed value ih

/-- Dropping seeds and anything but what builds a grid makes no difference. -/
theorem filter {p : Op Float → Bool} (hp : ∀ op, op.isCreate = true → p op = true)
    (h : plan.BuildsFirst) : BuildsFirst (plan.filter p) := by
  induction h with
  | build rows cols rest =>
    rw [List.filter_cons_of_pos (hp (.build rows cols) rfl)]
    exact .build rows cols _
  | @seed value rest h ih =>
    cases hseed : p (.seed value) with
    | true =>
      rw [List.filter_cons_of_pos hseed]
      exact .seed value ih
    | false =>
      rw [List.filter_cons_of_neg (by rw [hseed]; exact Bool.false_ne_true)]
      exact ih

theorem map_mapNumbers (f : Float → Float) (h : plan.BuildsFirst) :
    BuildsFirst (plan.map (Op.mapNumbers f)) := by
  induction h with
  | build rows cols rest => exact .build rows cols _
  | seed value h ih => exact .seed value ih

theorem expandFrom (default : UInt32) (h : plan.BuildsFirst) (layout : Layout Float) :
    BuildsFirst (Plan.expandFrom default layout plan).1 := by
  induction h generalizing layout with
  | build rows cols rest => exact .build rows cols _
  | seed value h ih => exact .seed value (ih _)

end BuildsFirst

/-! ### Plans that never build -/

theorem any_isCreate_filter (h : plan.any Op.isCreate = false) (p : Op Float → Bool) :
    (plan.filter p).any Op.isCreate = false :=
  List.any_eq_false.mpr fun op hop => List.any_eq_false.mp h op (List.mem_filter.mp hop).1

theorem any_isCreate_map_mapNumbers (f : Float → Float) (plan : Plan Float) :
    (plan.map (Op.mapNumbers f)).any Op.isCreate = plan.any Op.isCreate := by
  rw [List.any_map]
  refine congrArg plan.any (funext fun op => ?_)
  rw [Function.comp_apply, Op.isCreate, Op.role, Op.verb_mapNumbers]
  rfl

/-- An operation that builds no grid stands for operations that build none. -/
theorem any_isCreate_expandOp {op : Op Float} (h : op.isCreate = false) (default : UInt32)
    (layout : Layout Float) : (expandOp default layout op).2.any Op.isCreate = false := by
  refine List.any_eq_false.mpr fun op' hop' => ?_
  cases standsFor_of_mem_expandOp hop' with
  | itself _ => exact Bool.eq_false_iff.mp h
  | fork => exact Bool.false_ne_true
  | rejoin => exact Bool.false_ne_true
  | smoothHeights => exact Bool.false_ne_true

theorem any_isCreate_expandFrom (default : UInt32) (h : plan.any Op.isCreate = false)
    (layout : Layout Float) :
    (expandFrom default layout plan).1.any Op.isCreate = false := by
  induction plan generalizing layout with
  | nil => rfl
  | cons op rest ih =>
    rw [List.any_cons, Bool.or_eq_false_iff] at h
    rw [expandFrom, List.any_append, any_isCreate_expandOp h.1, ih h.2, Bool.or_self]

/-! ### From one request to the next -/

/-- Merging a request leaves out no operation that builds a grid. -/
theorem isLeftOut_eq_false_of_isCreate {op : Op Float} (h : op.isCreate = true)
    (fresh : Plan Float) : op.isLeftOut fresh = false := by
  rw [Op.isLeftOut_of_isSpared (Op.isSpared_of_isCreate h), Op.isSeed_eq_false_of_isCreate h,
    Bool.and_false]

theorem CreatesFirst.buildsFirst {default : Op Float} {ops : List (Op Float)} {synthesized : Bool}
    (h : CreatesFirst default ops plan synthesized) (hdefault : default.isCreate = true) :
    plan.BuildsFirst := by
  cases h with
  | moved hbefore hcreate after => exact buildsFirst_of_isCreate hcreate _
  | synthesized hops => exact buildsFirst_of_isCreate hdefault _

namespace Governs

variable {grid : Option Grid}

/-- Merging a request keeps a plan that governs the grid. -/
theorem amend {fresh : List (Op Float)} {creates : Bool} {default : Op Float}
    (h : plan.Governs grid) (hcreates : fresh.any Op.isCreate = true → creates = true)
    (hdefault : default.isCreate = true) :
    (plan.amend fresh creates default).plan.Governs grid := by
  cases creates with
  | true => exact .inl ((createsFirst_createFirst default _).buildsFirst hdefault)
  | false =>
    have hfresh : fresh.any Op.isCreate = false :=
      Bool.eq_false_iff.mpr fun h => Bool.noConfusion (hcreates h)
    rw [plan_amend_false]
    split_ifs with hempty
    · exact .inl (buildsFirst_of_isCreate hdefault _)
    · rcases h with h | ⟨h, hgrid⟩
      · refine .inl (.append (h.filter fun op hop => ?_) _)
        rw [isLeftOut_eq_false_of_isCreate hop, Bool.not_false]
      · refine .inr ⟨?_, hgrid⟩
        rw [keptFor, additions, List.any_append, any_isCreate_filter h, any_isCreate_filter hfresh,
          Bool.or_self]

theorem withSeed (h : plan.Governs grid) (draw : SeedDraw) :
    (plan.withSeed draw).plan.Governs grid := by
  rw [Plan.withSeed]
  split_ifs
  · rcases h with h | ⟨h, hgrid⟩
    · exact .inl (.seed _ h)
    · exact .inr ⟨h, hgrid⟩
  · exact h

theorem map_unsignZeros (h : plan.Governs grid) : Governs (plan.map Op.unsignZeros) grid := by
  rcases h with h | ⟨h, hgrid⟩
  · exact .inl (h.map_mapNumbers unsignZero)
  · exact .inr ⟨(any_isCreate_map_mapNumbers unsignZero plan).trans h, hgrid⟩

theorem expand (h : plan.Governs grid) (default : UInt32) :
    (plan.expand default).1.Governs grid := by
  rcases h with h | ⟨h, hgrid⟩
  · exact .inl (h.expandFrom default _)
  · exact .inr ⟨any_isCreate_expandFrom default h _, hgrid⟩

end Governs

end Plan

/-! ### Carrying out such a plan -/

namespace Track

variable {params : Params} {plan : Plan Float} {t u : Track} {index : ℕ} {seeded : Bool}

/-- Building a grid leaves nothing of the grid at the start. -/
theorem step_build {rows cols : UInt32} {r : Track × ℕ × Option Note}
    (h : t.step params seeded (.build rows cols) = .ok r) (hs : t.stream = u.stream) :
    u.step params seeded (.build rows cols) = .ok r := by
  have hstep (v : Track) : v.step params seeded (.build rows cols) =
      match (Op.build rows cols).check params with
      | .ok () => .ok (⟨some (Grid.full rows cols), v.stream⟩, rows.toNat * cols.toNat, none)
      | .error e => .error (.argument e) := by
    cases hcheck : (Op.build rows cols).check params with
    | ok _ => simp [step, perform, Op.role, Op.verb, Verb.role, hcheck, act]
    | error e => simp [step, perform, Op.role, Op.verb, Verb.role, hcheck]
  rw [hstep] at h ⊢
  rwa [← hs]

/-- A plan that builds first, and is carried out to its end, does the same to any two tracks. -/
theorem executeFrom_eq_of_buildsFirst (h : plan.BuildsFirst) (hs : t.stream = u.stream)
    {reports : List Report} (ht : (executeFrom params index seeded plan t).1 = .ok reports) :
    executeFrom params index seeded plan u = executeFrom params index seeded plan t := by
  induction h generalizing index seeded reports with
  | build rows cols rest =>
    cases hstep : t.step params seeded (.build rows cols) with
    | error fault =>
      simp only [executeFrom, hstep] at ht
      cases ht
    | ok r =>
      simp only [executeFrom, hstep, step_build hstep hs]
  | @seed value rest h ih =>
    have hstep (v : Track) : v.step params seeded (.seed value) =
        .ok (v, 0, some (if seeded then .seedIgnored else .seeded)) := rfl
    simp only [executeFrom, hstep] at ht ⊢
    rcases hrest : executeFrom params (index + 1) (seeded || (Op.seed value : Op Float).isSeed)
      rest t with ⟨e | reports, last⟩
    · rw [hrest] at ht
      cases ht
    · rw [ih (congrArg Prod.fst hrest), hrest]

/-- A plan that never builds leaves a track without a grid alone, also where it is not carried out
to its end. -/
theorem grid_executeFrom_eq_none (h : plan.any Op.isCreate = false) (ht : t.grid = none) :
    (executeFrom params index seeded plan t).2.grid = none := by
  induction plan generalizing index seeded t with
  | nil => exact ht
  | cons op rest ih =>
    rw [List.any_cons, Bool.or_eq_false_iff] at h
    rw [executeFrom]
    cases hstep : t.step params seeded op with
    | error fault => exact ht
    | ok r =>
      obtain ⟨next, affected, note⟩ := r
      have hnext : next.grid = none := by
        rw [show next = t from (step_ok hstep).trans (by rw [act_of_grid_none h.1 ht])]
        exact ht
      have hrest : (executeFrom params (index + 1) (seeded || op.isSeed) rest next).2.grid = none :=
        ih h.2 hnext
      dsimp only
      split <;> rename_i heq <;> rwa [heq] at hrest

/-- A plan that never builds leaves a track without a grid alone. -/
theorem grid_execute_eq_none (h : plan.any Op.isCreate = false) (ht : t.grid = none) :
    (t.execute params plan).2.grid = none := by
  -- The stream is taken apart from the track, since comparing the two tracks would evaluate it.
  have hnone (stream : Random.Stream) :
      (executeFrom params 0 false plan ⟨t.grid, stream⟩).2.grid = none :=
    grid_executeFrom_eq_none h ht
  exact hnone _

/-- An execution takes no notice of the stream at the start. -/
theorem execute_of_grid_eq (h : t.grid = u.grid) :
    t.execute params plan = u.execute params plan := by
  rw [execute, execute, reseed, reseed, h]

end Track

namespace Plan.Governs

variable {params : Params} {plan : Plan Float} {t : Track}

/-- A plan governs the grid that it leads to, also where it is not carried out to its end. -/
theorem execute_expand (h : plan.Governs t.grid) (params : Params) (default : UInt32) :
    plan.Governs (t.execute params (plan.expand default).1).2.grid := by
  rcases h with h | ⟨h, hgrid⟩
  · exact .inl h
  · exact .inr ⟨h, Track.grid_execute_eq_none (any_isCreate_expandFrom default h _) hgrid⟩

/-- The track that a plan leads to is the one that it builds from nothing. -/
theorem execute_eq (h : plan.Governs t.grid) (ht : t.Completes params plan) {u : Track}
    (hu : u.grid = none) : u.execute params plan = t.execute params plan := by
  rcases h with h | ⟨-, hgrid⟩
  · exact Track.executeFrom_eq_of_buildsFirst h rfl ht.choose_spec
  · exact Track.execute_of_grid_eq (hu.trans hgrid.symm)

end Plan.Governs

end Raceway
