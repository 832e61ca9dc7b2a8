import Mathlib
import Raceway.Proofs.Plan.Stopping
/-!
# Two tracks that both have a grid, or both have none

Whether an operation is carried out depends on its arguments, on the parameters, and on whether
there is a grid. It does not depend on which grid that is, on its tiles, holes and margins, or on
the random stream. Since an operation also builds a grid or leaves it built whatever the grid is,
two tracks that both have a grid, or both have none, stay so side by side. So a plan completes on
both of them, or ends on both at the same operation and for the same reason.

## Main definitions

* `Raceway.Track.Alike`: the tracks both have a grid, or both have none.
* `Raceway.Track.EndsAlike`: two executions that end in the same way.

## Main results

* `Raceway.Track.step_alike`: one operation on two tracks.
* `Raceway.Track.executeFrom_alike`: operations in order on two tracks.
* `Raceway.Track.execute_alike`: a plan completes on both tracks, or ends on both in the same way.
-/

namespace Raceway

open Raceway.Random

namespace Track

variable {params : Params} {seeded : Bool} {op : Op Float} {t u : Track}

/-- The tracks both have a grid, or both have none. -/
def Alike (t u : Track) : Prop :=
  t.grid.isSome = u.grid.isSome

/-! ### One operation -/

/-- After an operation there is a grid if there was one, or if the operation builds one. -/
theorem isSome_grid_act (params : Params) (op : Op Float) (t : Track) :
    (t.act params op).1.grid.isSome = (t.grid.isSome || op.isCreate) := by
  obtain ⟨_ | g, stream⟩ := t <;> cases op <;> rfl

theorem Alike.act (h : t.Alike u) (params : Params) (op : Op Float) :
    (t.act params op).1.Alike (u.act params op).1 := by
  rw [Alike, isSome_grid_act, isSome_grid_act, h]

/-- What a track turns down, every track does that is alike. -/
theorem Alike.refuses (h : t.Alike u) {fault : ExecutionFault} (ht : t.Refuses params op fault) :
    u.Refuses params op fault := by
  cases ht with
  | composite hrole => exact .composite hrole
  | fill hrole => exact .fill hrole
  | argument hcheck hgrid => exact .argument hcheck (hgrid.imp_right h.symm.trans)

/-- A step succeeds on both tracks and keeps them alike, or it fails on both for the same reason. -/
theorem step_alike (h : t.Alike u) (params : Params) (seeded : Bool) (op : Op Float) :
    (∃ r r', t.step params seeded op = .ok r ∧ u.step params seeded op = .ok r' ∧
      r.1.Alike r'.1) ∨
    ∃ fault, t.step params seeded op = .error fault ∧ u.step params seeded op = .error fault := by
  cases ht : t.step params seeded op with
  | error fault =>
    exact .inr ⟨fault, rfl, step_eq_error_iff.mpr (h.refuses (step_eq_error_iff.mp ht))⟩
  | ok r =>
    cases hu : u.step params seeded op with
    | error fault =>
      have hrefuses := Alike.refuses (Eq.symm h) (step_eq_error_iff.mp hu)
      rw [step_eq_error_iff.mpr hrefuses] at ht
      cases ht
    | ok r' =>
      refine .inl ⟨r, r', rfl, rfl, ?_⟩
      rw [step_ok ht, step_ok hu]
      exact h.act params op

/-! ### Operations in order -/

/-- Two executions that end in the same way: both complete, or both end at the same operation and
for the same reason. The tracks that they leave are alike. -/
inductive EndsAlike : Except ExecutionError (List Report) × Track →
    Except ExecutionError (List Report) × Track → Prop
  /-- Both complete. -/
  | completes {reports reports' : List Report} {last last' : Track} (h : last.Alike last') :
    EndsAlike (.ok reports, last) (.ok reports', last')
  /-- Both end at an operation that is turned down. -/
  | stops {e e' : ExecutionError} {last last' : Track} (hindex : e.index = e'.index)
      (hop : e.op = e'.op) (hfault : e.fault = e'.fault) (h : last.Alike last') :
    EndsAlike (.error e, last) (.error e', last')

theorem EndsAlike.withReport {x y : Except ExecutionError (List Report) × Track}
    (h : EndsAlike x y) (report report' : Report) :
    EndsAlike (withReport report x) (withReport report' y) := by
  cases h with
  | completes h => exact .completes h
  | stops hindex hop hfault h => exact .stops hindex hop hfault h

/-- Operations end in the same way on two tracks that are alike. -/
theorem executeFrom_alike (h : t.Alike u) (params : Params) (index : ℕ) (seeded : Bool)
    (plan : Plan Float) :
    EndsAlike (executeFrom params index seeded plan t)
      (executeFrom params index seeded plan u) := by
  induction plan generalizing index seeded t u with
  | nil => exact .completes h
  | cons op plan ih =>
    rcases step_alike h params seeded op with
      ⟨⟨next, n, note⟩, ⟨next', n', note'⟩, ht, hu, hnext⟩ | ⟨fault, ht, hu⟩
    · rw [executeFrom_cons_of_ok ht, executeFrom_cons_of_ok hu]
      exact (ih hnext (index + 1) (seeded || op.isSeed)).withReport _ _
    · rw [executeFrom, ht, executeFrom, hu]
      exact .stops rfl rfl rfl h

/-- Whether a plan is carried out does not depend on what is on the grid. On two tracks that both
have a grid or both have none, with any sizes, holes and margins and any random streams, it
completes on both, or it ends on both at the same operation, for the same reason and with the same
wording. -/
theorem execute_alike (params : Params) (plan : Plan Float) {t u : Track}
    (h : t.grid.isSome = u.grid.isSome) :
    (t.Completes params plan ∧ u.Completes params plan) ∨
    ∃ e e', (t.execute params plan).1 = .error e ∧ (u.execute params plan).1 = .error e' ∧
      e.index = e'.index ∧ e.op = e'.op ∧ e.fault = e'.fault ∧ e.message = e'.message := by
  have hreseed : (t.reseed plan.seed).Alike (u.reseed plan.seed) := by
    rwa [Alike, grid_reseed, grid_reseed]
  have hends : EndsAlike (t.execute params plan) (u.execute params plan) :=
    executeFrom_alike hreseed params 0 false plan
  rcases ht : t.execute params plan with ⟨result, last⟩
  rcases hu : u.execute params plan with ⟨result', last'⟩
  rw [ht, hu] at hends
  cases hends with
  | @completes reports reports' =>
    exact .inl ⟨⟨reports, congrArg Prod.fst ht⟩, ⟨reports', congrArg Prod.fst hu⟩⟩
  | @stops e e' _ _ hindex hop hfault =>
    have hmessage : e.message = e'.message := by
      rw [ExecutionError.message, ExecutionError.message, hindex, hop, hfault]
    exact .inr ⟨e, e', rfl, rfl, hindex, hop, hfault, hmessage⟩

/-- Grids of different sizes, one of them with a hole and a margin that is larger than it, and
streams of different seeds. Random holes and a new grid come before slopes without segments. -/
theorem execute_alike_segment :
    let t : Track := ⟨some (Grid.full 3 2), Stream.ofSeed 7⟩
    let u : Track :=
      ⟨some { ((Grid.full 5 1).removeTile 2 0).1 with marginEnd := 9 }, Stream.ofSeed 1⟩
    let plan : Plan Float :=
      [.randomHoles 50, .curve 9 0 .left 10, .build 2 2, .seed 5, .slopes (-5) 5 0, .fillAll]
    ∃ e e', (t.execute {} plan).1 = .error e ∧ (u.execute {} plan).1 = .error e' ∧
      e.index = e'.index ∧ e.op = e'.op ∧ e.fault = e'.fault ∧ e.message = e'.message := by
  intro t u plan
  have hbuilt : t.grid.isSome = u.grid.isSome := rfl
  have hends : (t.execute {} plan).1.isOk = false := by decide +kernel
  rcases execute_alike {} plan hbuilt with ⟨hcompletes, -⟩ | hstops
  · rw [completes_iff_isOk, hends] at hcompletes
    cases hcompletes
  · exact hstops

end Track

end Raceway
