import Mathlib
import Raceway.Execution
import Raceway.Plan.Amend
import Raceway.Proofs.Results
import Raceway.Session.Editor
/-!
# What the result of an execution depends on

An execution that completes does to the track what its operations do one after the other. The random
stream starts from the seed of the plan, whatever it was before. The grid at the start is gone once
a grid is built; what is left of it is how far the operations in front of that have moved the
stream, since a random operation draws for the tiles that are there and not at all without a grid.

## Main definitions

* `Raceway.Track.actAll` and `Raceway.Track.counts`: what operations do to a track in order, and
  how many tiles or rows they affect.
* `Raceway.Track.Completes`: an execution completes.
* `Raceway.Plan.beforeCreate`, `Raceway.Plan.fromCreate`: a plan at the place where it first builds
  a grid.

## Main results

* `Raceway.Track.execute_ok`: an execution that completes does what its operations do, and reports
  what they affect.
* `Raceway.Track.exists_executeFrom_eq`: any execution does what its first operations do.
* `Raceway.Track.grid_actAll_of_build`: behind a build, the result depends on the stream alone.
* `Raceway.Track.grid_execute_of_create`: when two executions of a plan end with the same grid.
-/

namespace Raceway

open Raceway.Random

namespace Track

variable {params : Params}

/-! ### Operations in order -/

/-- What operations do to a track in order. -/
def actAll (params : Params) (ops : Plan Float) (t : Track) : Track :=
  ops.foldl (fun t op => (t.act params op).1) t

theorem actAll_cons (op : Op Float) (ops : Plan Float) (t : Track) :
    t.actAll params (op :: ops) = (t.act params op).1.actAll params ops :=
  rfl

theorem actAll_append (a b : Plan Float) (t : Track) :
    t.actAll params (a ++ b) = (t.actAll params a).actAll params b :=
  List.foldl_append

-- Reseeding is unfolded first, since comparing the two tracks would evaluate the stream.
theorem grid_reseed (t : Track) (seed : UInt64) : (t.reseed seed).grid = t.grid := by
  rw [reseed]

/-- Without a grid, only an operation that builds one does anything. -/
theorem act_of_grid_none {op : Op Float} (hop : op.isCreate = false) {t : Track}
    (ht : t.grid = none) : t.act params op = (t, 0) := by
  obtain ⟨grid, stream⟩ := t
  subst ht
  cases op <;> first | rfl | exact Bool.noConfusion hop

/-- On a grid that is there, the track changes as the grid and the stream do. -/
theorem act_of_grid_some {op : Op Float} (hop : op.isCreate = false) {g g' : Grid}
    {stream stream' : Stream} {n : ℕ} (h : g.act params op stream = (g', stream', n)) :
    act params op ⟨some g, stream⟩ = (⟨some g', stream'⟩, n) := by
  have hact (r : Grid × Stream × ℕ) (hr : g.act params op stream = r) :
      act params op ⟨some g, stream⟩ = (⟨some r.1, r.2.1⟩, r.2.2) := by
    rw [← hr]
    cases op <;> first | rfl | exact Bool.noConfusion hop
  exact hact _ h

/-- A seed operation leaves the track as it is. -/
theorem act_of_isSeed {op : Op Float} (hop : op.isSeed = true) (t : Track) :
    t.act params op = (t, 0) := by
  obtain ⟨grid, stream⟩ := t
  cases op <;> first | exact Bool.noConfusion hop | cases grid <;> rfl

theorem perform_ok {op : Op Float} {t : Track} {r : Track × ℕ} (h : t.perform params op = .ok r) :
    r = t.act params op := by
  obtain ⟨u, -, h⟩ := bind_eq_ok h
  exact (Except.ok.inj h).symm

/-- An operation that accepts its arguments acts. -/
theorem perform_of_check {op : Op Float} (h : op.check params = .ok ()) (t : Track) :
    t.perform params op = .ok (t.act params op) := by
  rw [perform, h]
  rfl

/-- What a step that succeeds can be: a seed, an operation that finds no grid, or one that is
performed. -/
theorem step_cases {seeded : Bool} {op : Op Float} {t : Track} {r : Track × ℕ × Option Note}
    (h : t.step params seeded op = .ok r) :
    (op.isSeed = true ∧ (r.1, r.2.1) = (t, 0)) ∨
      (op.isCreate = false ∧ t.grid = none ∧ (r.1, r.2.1) = (t, 0)) ∨
      t.perform params op = .ok (r.1, r.2.1) := by
  have hacting (hne : op.role ≠ .composite ∧ op.role ≠ .fill ∧ op.role ≠ .seed) :
      (op.isCreate = false ∧ t.grid = none ∧ (r.1, r.2.1) = (t, 0)) ∨
        t.perform params op = .ok (r.1, r.2.1) := by
    rw [step] at h
    split at h <;> first | (exfalso; tauto) | skip
    all_goals
      split_ifs at h with hnone
      · obtain rfl := Except.ok.inj h
        exact .inl ⟨beq_eq_false_iff_ne.mpr hnone.1, Option.isNone_iff_eq_none.mp hnone.2, rfl⟩
      · cases hperform : t.perform params op with
        | error e =>
          rw [hperform] at h
          cases h
        | ok p =>
          rw [hperform] at h
          rw [← Except.ok.inj h]
          exact .inr rfl
  cases hrole : op.role with
  | composite =>
    rw [step, hrole] at h
    cases h
  | fill =>
    rw [step, hrole] at h
    cases h
  | seed =>
    have hseed : op.isSeed = true := by
      cases op <;> first | rfl | exact OpRole.noConfusion hrole
    rw [step, hrole] at h
    obtain rfl := Except.ok.inj h
    exact .inl ⟨hseed, rfl⟩
  | create => exact .inr (hacting (by simp [hrole]))
  | primitive => exact .inr (hacting (by simp [hrole]))

/-- A step that succeeds does and counts what the operation does. -/
theorem step_act {seeded : Bool} {op : Op Float} {t : Track} {r : Track × ℕ × Option Note}
    (h : t.step params seeded op = .ok r) : (r.1, r.2.1) = t.act params op := by
  rcases step_cases h with ⟨hseed, heq⟩ | ⟨hcreate, hgrid, heq⟩ | hperform
  · rw [heq, act_of_isSeed hseed]
  · rw [heq, act_of_grid_none hcreate hgrid]
  · exact perform_ok hperform

theorem step_ok {seeded : Bool} {op : Op Float} {t : Track} {r : Track × ℕ × Option Note}
    (h : t.step params seeded op = .ok r) : r.1 = (t.act params op).1 :=
  congrArg Prod.fst (step_act h)

/-- An execution that completes does what its operations do. -/
theorem executeFrom_ok {index : ℕ} {seeded : Bool} {ops : Plan Float} {t : Track}
    {reports : List Report} (h : (executeFrom params index seeded ops t).1 = .ok reports) :
    (executeFrom params index seeded ops t).2 = t.actAll params ops := by
  induction ops generalizing index seeded t reports with
  | nil => rfl
  | cons op ops ih =>
    rw [executeFrom] at h ⊢
    cases hstep : t.step params seeded op with
    | error fault => simp [hstep] at h
    | ok r =>
      obtain ⟨next, n, note⟩ := r
      simp only [hstep] at h ⊢
      cases hrest : executeFrom params (index + 1) (seeded || op.isSeed) ops next with
      | mk result last =>
        cases result with
        | error e => simp [hrest] at h
        | ok rest =>
          have hlast := ih (congrArg Prod.fst hrest)
          rw [hrest] at hlast
          simpa [hrest, actAll_cons, ← step_ok hstep] using hlast

/-- How many tiles or rows each of some operations affects, in order. -/
def counts (params : Params) : Plan Float → Track → List ℕ
  | [], _ => []
  | op :: ops, t => (t.act params op).2 :: counts params ops (t.act params op).1

/-- An execution that completes reports its operations in order, with what each of them affects. -/
theorem executeFrom_reports {index : ℕ} {seeded : Bool} {ops : Plan Float} {t : Track}
    {reports : List Report} (h : (executeFrom params index seeded ops t).1 = .ok reports) :
    reports.map (·.op) = ops ∧ reports.map (·.affected) = t.counts params ops := by
  induction ops generalizing index seeded t reports with
  | nil =>
    obtain rfl := Except.ok.inj h
    exact ⟨rfl, rfl⟩
  | cons op ops ih =>
    rw [executeFrom] at h
    cases hstep : t.step params seeded op with
    | error fault => simp [hstep] at h
    | ok r =>
      obtain ⟨next, n, note⟩ := r
      have hact : (next, n) = t.act params op := step_act hstep
      simp only [hstep] at h
      rcases hrest : executeFrom params (index + 1) (seeded || op.isSeed) ops next with
        ⟨e | rest, last⟩
      · simp [hrest] at h
      · rw [hrest] at h
        obtain rfl := Except.ok.inj h
        obtain ⟨hops, hcounts⟩ := ih (congrArg Prod.fst hrest)
        rw [List.map_cons, List.map_cons, hops, hcounts, counts, ← hact]
        exact ⟨rfl, rfl⟩

/-- Where an execution ends, whether it completes or not, the operations up to there have been
carried out. -/
theorem exists_executeFrom_eq (params : Params) (index : ℕ) (seeded : Bool) (ops : Plan Float)
    (t : Track) :
    ∃ done, done <+: ops ∧ (executeFrom params index seeded ops t).2 = t.actAll params done := by
  induction ops generalizing index seeded t with
  | nil => exact ⟨[], List.prefix_rfl, rfl⟩
  | cons op ops ih =>
    rw [executeFrom]
    cases hstep : t.step params seeded op with
    | error fault => exact ⟨[], List.nil_prefix, rfl⟩
    | ok r =>
      obtain ⟨next, n, note⟩ := r
      obtain ⟨done, hdone, hlast⟩ := ih (index + 1) (seeded || op.isSeed) next
      refine ⟨op :: done, List.prefix_cons_inj op |>.mpr hdone, ?_⟩
      rw [actAll_cons, ← step_ok hstep, ← hlast]
      dsimp only
      split <;> rename_i heq <;> rw [heq]

/-- The plan is carried out to its end. -/
def Completes (params : Params) (plan : Plan Float) (t : Track) : Prop :=
  ∃ reports, (t.execute params plan).1 = .ok reports

theorem execute_of_completes {plan : Plan Float} {t : Track} (h : t.Completes params plan) :
    (t.execute params plan).2 = (t.reseed plan.seed).actAll params plan :=
  executeFrom_ok h.choose_spec

/-- An execution that completes does what its operations do, and reports them in order with what
each of them affects. -/
theorem execute_ok {plan : Plan Float} {t last : Track} {reports : List Report}
    (h : t.execute params plan = (.ok reports, last)) :
    last = (t.reseed plan.seed).actAll params plan ∧ reports.map (·.op) = plan ∧
      reports.map (·.affected) = (t.reseed plan.seed).counts params plan := by
  have hresult : (t.execute params plan).1 = .ok reports := congrArg Prod.fst h
  refine ⟨?_, executeFrom_reports hresult⟩
  rw [← execute_of_completes ⟨reports, hresult⟩, h]

theorem completes_iff_isOk {plan : Plan Float} {t : Track} :
    t.Completes params plan ↔ (t.execute params plan).1.isOk = true := by
  rw [Completes]
  cases (t.execute params plan).1 with
  | ok reports => exact ⟨fun _ => rfl, fun _ => ⟨reports, rfl⟩⟩
  | error e => exact ⟨(nomatch ·.choose_spec), fun h => Bool.noConfusion h⟩

/-! ### Operations that draw no random numbers -/

theorem hasRandom_cons (op : Op Float) (ops : Plan Float) :
    Plan.hasRandom (op :: ops) = (op.isRandom || ops.hasRandom) :=
  rfl

theorem stream_act {op : Op Float} (hop : op.isRandom = false) (t : Track) :
    (t.act params op).1.stream = t.stream := by
  obtain ⟨grid, stream⟩ := t
  cases grid <;> cases op <;> first | rfl | exact Bool.noConfusion hop

theorem grid_act {op : Op Float} (hop : op.isRandom = false) {t u : Track}
    (h : t.grid = u.grid) : (t.act params op).1.grid = (u.act params op).1.grid := by
  obtain ⟨grid, stream⟩ := t
  obtain ⟨grid', stream'⟩ := u
  obtain rfl : grid = grid' := h
  cases grid <;> cases op <;> first | rfl | exact Bool.noConfusion hop

/-- Without random operations the stream stays where it is. -/
theorem stream_actAll {ops : Plan Float} (hops : ops.hasRandom = false) (t : Track) :
    (t.actAll params ops).stream = t.stream := by
  induction ops generalizing t with
  | nil => rfl
  | cons op ops ih =>
    obtain ⟨hop, hops⟩ := Bool.or_eq_false_iff.mp (hasRandom_cons op ops ▸ hops)
    rw [actAll_cons, ih hops, stream_act hop]

/-- Without random operations the grid does not depend on the stream. -/
theorem grid_actAll {ops : Plan Float} (hops : ops.hasRandom = false) {t u : Track}
    (h : t.grid = u.grid) : (t.actAll params ops).grid = (u.actAll params ops).grid := by
  induction ops generalizing t u with
  | nil => exact h
  | cons op ops ih =>
    obtain ⟨hop, hops⟩ := Bool.or_eq_false_iff.mp (hasRandom_cons op ops ▸ hops)
    exact ih hops (grid_act hop h)

end Track

/-! ### The place where a plan first builds a grid -/

theorem Op.exists_build_of_isCreate {op : Op Float} (h : op.isCreate = true) :
    ∃ rows cols, op = .build rows cols := by
  cases op with
  | build rows cols => exact ⟨rows, cols, rfl⟩
  | _ => exact Bool.noConfusion h

namespace Plan

/-- The operations before the first one that builds a grid. -/
def beforeCreate (plan : Plan Float) : Plan Float :=
  plan.takeWhile fun op => !op.isCreate

/-- The operations from the first one that builds a grid on. -/
def fromCreate (plan : Plan Float) : Plan Float :=
  plan.dropWhile fun op => !op.isCreate

theorem beforeCreate_append_fromCreate (plan : Plan Float) :
    plan.beforeCreate ++ plan.fromCreate = plan :=
  List.takeWhile_append_dropWhile

/-- A plan that builds a grid has a build where it first builds one. -/
theorem exists_fromCreate {plan : Plan Float} (h : plan.any Op.isCreate = true) :
    ∃ rows cols rest, plan.fromCreate = .build rows cols :: rest := by
  induction plan with
  | nil => exact Bool.noConfusion h
  | cons op plan ih =>
    cases hop : op.isCreate with
    | true =>
      obtain ⟨rows, cols, rfl⟩ := Op.exists_build_of_isCreate hop
      exact ⟨rows, cols, plan, rfl⟩
    | false =>
      rw [List.any_cons, hop, Bool.false_or] at h
      rw [fromCreate, List.dropWhile_cons_of_pos (by rw [hop]; rfl)]
      exact ih h

end Plan

namespace Track

variable {params : Params} {plan : Plan Float} {t u : Track}

/-- The random stream when an execution reaches the first operation that builds a grid. -/
def streamAtCreate (params : Params) (plan : Plan Float) (t : Track) : Stream :=
  ((t.reseed plan.seed).actAll params plan.beforeCreate).stream

/-- Behind a build, the result depends on the stream alone. -/
theorem actAll_fromCreate (hcreate : plan.any Op.isCreate = true) (h : t.stream = u.stream) :
    t.actAll params plan.fromCreate = u.actAll params plan.fromCreate := by
  obtain ⟨rows, cols, rest, hfrom⟩ := Plan.exists_fromCreate hcreate
  have hact : (t.act params (.build rows cols)).1 = (u.act params (.build rows cols)).1 :=
    congrArg (Track.mk (some (Grid.full rows cols))) h
  rw [hfrom, actAll_cons, actAll_cons, hact]

/-- Behind a build, the grid does not even depend on the stream without random operations. -/
theorem grid_actAll_fromCreate (hcreate : plan.any Op.isCreate = true)
    (hrandom : plan.fromCreate.hasRandom = false) :
    (t.actAll params plan.fromCreate).grid = (u.actAll params plan.fromCreate).grid := by
  obtain ⟨rows, cols, rest, hfrom⟩ := Plan.exists_fromCreate hcreate
  rw [hfrom, hasRandom_cons] at hrandom
  rw [hfrom]
  exact grid_actAll (Bool.or_eq_false_iff.mp hrandom).2 rfl

theorem streamAtCreate_of_not_random (h : plan.beforeCreate.hasRandom = false) (t : Track) :
    t.streamAtCreate params plan = Stream.ofSeed plan.seed := by
  rw [streamAtCreate, stream_actAll h, reseed]

theorem streamAtCreate_of_grid_eq (h : t.grid = u.grid) :
    t.streamAtCreate params plan = u.streamAtCreate params plan := by
  rw [streamAtCreate, streamAtCreate, reseed, reseed, h]

/-- Two executions of a plan that builds a grid end with the same grid, if they reach the first
build with the same stream, or if no random operation comes behind it. They reach it with the same
stream if no random operation comes before it, or if they start with the same grid or with none. -/
theorem grid_execute_of_create (hcreate : plan.any Op.isCreate = true)
    (ht : t.Completes params plan) (hu : u.Completes params plan)
    (h : plan.beforeCreate.hasRandom = false ∨ plan.fromCreate.hasRandom = false ∨
      t.grid = u.grid ∨ t.streamAtCreate params plan = u.streamAtCreate params plan) :
    (t.execute params plan).2.grid = (u.execute params plan).2.grid ∧
      (t.execute params plan).2.digest = (u.execute params plan).2.digest := by
  have hgrid : (t.execute params plan).2.grid = (u.execute params plan).2.grid := by
    have hsplit := plan.beforeCreate_append_fromCreate
    rw [execute_of_completes ht, execute_of_completes hu, ← hsplit, actAll_append, actAll_append,
      hsplit]
    have hsame (hstream : t.streamAtCreate params plan = u.streamAtCreate params plan) :=
      congrArg Track.grid (@actAll_fromCreate params plan _ _ hcreate hstream)
    rcases h with h | h | h | h
    · exact hsame (by rw [streamAtCreate_of_not_random h, streamAtCreate_of_not_random h])
    · exact grid_actAll_fromCreate hcreate h
    · exact hsame (streamAtCreate_of_grid_eq h)
    · exact hsame h
  exact ⟨hgrid, congrArg digestOf hgrid⟩

/-- A built track with any stream and one that has not been built. -/
theorem grid_execute_of_create_holes :
    (Track.fresh.execute {} [.build 1 1, .randomHoles 80]).2.grid =
        ((⟨some (Grid.full 1 1), Stream.ofSeed 7⟩ : Track).execute {}
          [.build 1 1, .randomHoles 80]).2.grid ∧
      (Track.fresh.execute {} [.build 1 1, .randomHoles 80]).2.digest =
        ((⟨some (Grid.full 1 1), Stream.ofSeed 7⟩ : Track).execute {}
          [.build 1 1, .randomHoles 80]).2.digest := by
  refine grid_execute_of_create rfl ?_ ?_ (.inl rfl)
  · exact completes_iff_isOk.mpr (by decide +kernel)
  · exact completes_iff_isOk.mpr (by decide +kernel)

/-- A random operation in front of the first build draws for the tiles of the grid at the start, and
so a random operation behind the build draws other numbers than without that grid. -/
theorem exists_grid_execute_ne :
    ∃ (params : Params) (plan : Plan Float) (t u : Track), plan.any Op.isCreate = true ∧
      t.Completes params plan ∧ u.Completes params plan ∧
      (t.execute params plan).2.grid ≠ (u.execute params plan).2.grid := by
  refine ⟨{}, [.randomHoles 0, .build 1 1, .randomHoles 80], Track.fresh,
    ⟨some (Grid.full 1 1), Stream.ofSeed 42⟩, rfl, ?_, ?_, fun h => ?_⟩
  · exact completes_iff_isOk.mpr (by decide +kernel)
  · exact completes_iff_isOk.mpr (by decide +kernel)
  · have hcount := congrArg (fun grid => (grid.map Grid.tileCount).getD 0) h
    revert hcount
    decide +kernel

end Track

end Raceway
