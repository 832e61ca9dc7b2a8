import Mathlib
import Raceway.Proofs.Plan.FirstSeed
import Raceway.Proofs.Plan.Stopping
/-!
# Where the seeds of a plan stand

The random stream starts from the first seed of a plan before the first operation is carried out,
and no operation changes that. A seed operation only leaves a remark, which depends on the seeds in
front of it, and no other operation looks at them. So a plan does the same as the plan that sets its
seed at the front and has no seeds otherwise: the other operations affect as much and leave the same
remarks, and the track is the same at the end, also where the plan cannot be carried out to its end.

## Main definitions

* `Raceway.Plan.unseeded` and `Raceway.Plan.seedFirst`: a plan without its seeds, and one that sets
  its seed at the front.
* `Raceway.Report.effects`: what the operations that are no seeds did.
* `Raceway.Track.SameBesidesSeeds`: two executions that differ in their seeds.

## Main results

* `Raceway.Track.executeFrom_unseeded`: operations with and without their seeds.
* `Raceway.Track.execute_seedFirst`: a plan, and the plan that sets its seed at the front.
-/

namespace Raceway

/-- The operations of a plan that are no seeds. -/
def Plan.unseeded (plan : Plan Float) : Plan Float :=
  plan.filter fun op => !op.isSeed

/-- The plan that sets the seed of a plan at the front, and no other seeds. -/
def Plan.seedFirst (plan : Plan Float) : Plan Float :=
  .seed plan.seed :: plan.unseeded

/-- What the operations that are no seeds did: how many tiles or rows they affected, and the remarks
on them. -/
def Report.effects (reports : List Report) : List (Op Float × ℕ × Option Note) :=
  (reports.filter fun r => !r.op.isSeed).map fun r => (r.op, r.affected, r.note)

section

variable {op : Op Float}

theorem Plan.unseeded_cons_of_isSeed (h : op.isSeed = true) (plan : Plan Float) :
    Plan.unseeded (op :: plan) = plan.unseeded :=
  List.filter_cons_of_neg (by rw [h]; exact Bool.false_ne_true)

theorem Plan.unseeded_cons_of_not_isSeed (h : op.isSeed = false) (plan : Plan Float) :
    Plan.unseeded (op :: plan) = op :: plan.unseeded :=
  List.filter_cons_of_pos (by rw [h]; rfl)

theorem Report.effects_cons_of_isSeed {r : Report} (h : r.op.isSeed = true)
    (reports : List Report) : Report.effects (r :: reports) = Report.effects reports := by
  rw [effects, List.filter_cons_of_neg (by rw [h]; exact Bool.false_ne_true), effects]

theorem Report.effects_cons_of_not_isSeed {r : Report} (h : r.op.isSeed = false)
    (reports : List Report) :
    Report.effects (r :: reports) = (r.op, r.affected, r.note) :: Report.effects reports := by
  rw [effects, List.filter_cons_of_pos (by rw [h]; rfl), List.map_cons, effects]

/-- The operations with effects are those of the reports that are no seeds. -/
theorem Report.map_fst_effects (reports : List Report) :
    (Report.effects reports).map Prod.fst = Plan.unseeded (reports.map (·.op)) := by
  rw [effects, List.map_map, Plan.unseeded, List.filter_map]
  rfl

end

namespace Track

variable {op : Op Float} {plan : Plan Float} {i j n : ℕ} {note : Option Note}
  {x y : Except ExecutionError (List Report) × Track}

/-- A seed leaves the track as it is. -/
theorem step_of_isSeed (h : op.isSeed = true) (params : Params) (seeded : Bool) (t : Track) :
    t.step params seeded op = .ok (t, 0, some (if seeded then .seedIgnored else .seeded)) := by
  cases op <;> first | rfl | exact Bool.noConfusion h

/-- Only seeds look at the seeds in front of them. -/
theorem step_of_not_isSeed (h : op.isSeed = false) (params : Params) (seeded seeded' : Bool)
    (t : Track) : t.step params seeded op = t.step params seeded' op := by
  cases op <;> first | rfl | exact Bool.noConfusion h

/-- Two executions that do the same besides seeds: of a plan, numbered from `i` on, and of its
operations that are no seeds, numbered from `j` on. They leave the same track. Where one of them
ends on the way, the other one ends there too, at the same operation and for the same reason. -/
inductive SameBesidesSeeds (plan : Plan Float) (i j : ℕ) :
    Except ExecutionError (List Report) × Track →
      Except ExecutionError (List Report) × Track → Prop
  /-- Both complete. -/
  | completes {reports reports' : List Report} (last : Track)
      (heffects : Report.effects reports = Report.effects reports') :
    SameBesidesSeeds plan i j (.ok reports, last) (.ok reports', last)
  /-- Both end behind the first `k` operations of the plan. -/
  | stops (k : ℕ) (op : Op Float) (fault : ExecutionFault) {done done' : List Report}
      (last : Track) (heffects : Report.effects done = Report.effects done') :
    SameBesidesSeeds plan i j (.error ⟨i + k, op, fault, done⟩, last)
      (.error ⟨j + (Plan.unseeded (plan.take k)).length, op, fault, done'⟩, last)

/-- A seed in front of the plan makes no difference. -/
theorem SameBesidesSeeds.seed (hop : op.isSeed = true) (h : SameBesidesSeeds plan (i + 1) j x y) :
    SameBesidesSeeds (op :: plan) i j (withReport ⟨i, op, n, note⟩ x) y := by
  cases h with
  | completes last heffects =>
    refine .completes last ?_
    rw [Report.effects_cons_of_isSeed hop, heffects]
  | stops k op' fault last heffects =>
    have hlength : Plan.unseeded (plan.take k) = Plan.unseeded ((op :: plan).take (k + 1)) := by
      rw [List.take_succ_cons, Plan.unseeded_cons_of_isSeed hop]
    rw [hlength, withReport, Nat.add_right_comm, Nat.add_assoc]
    refine .stops (k + 1) op' fault last ?_
    rw [Report.effects_cons_of_isSeed hop, heffects]

/-- Any other operation in front of the plan does the same in both executions. -/
theorem SameBesidesSeeds.cons (hop : op.isSeed = false)
    (h : SameBesidesSeeds plan (i + 1) (j + 1) x y) :
    SameBesidesSeeds (op :: plan) i j (withReport ⟨i, op, n, note⟩ x)
      (withReport ⟨j, op, n, note⟩ y) := by
  have heffects {reports reports' : List Report}
      (h : Report.effects reports = Report.effects reports') :
      Report.effects (⟨i, op, n, note⟩ :: reports) =
        Report.effects (⟨j, op, n, note⟩ :: reports') := by
    rw [Report.effects_cons_of_not_isSeed hop, Report.effects_cons_of_not_isSeed hop, h]
  cases h with
  | completes last h => exact .completes last (heffects h)
  | stops k op' fault last h =>
    have hlength : (Plan.unseeded (plan.take k)).length + 1 =
        (Plan.unseeded ((op :: plan).take (k + 1))).length := by
      rw [List.take_succ_cons, Plan.unseeded_cons_of_not_isSeed hop, List.length_cons]
    rw [withReport, withReport, Nat.add_right_comm i, Nat.add_assoc i, Nat.add_right_comm j,
      Nat.add_assoc j, hlength]
    exact .stops (k + 1) op' fault last (heffects h)

/-- Operations do the same with their seeds and without them, on the same track and whatever seeds
have been in front of them. -/
theorem executeFrom_unseeded (params : Params) (plan : Plan Float) (i j : ℕ)
    (seeded seeded' : Bool) (t : Track) :
    SameBesidesSeeds plan i j (executeFrom params i seeded plan t)
      (executeFrom params j seeded' plan.unseeded t) := by
  induction plan generalizing i j seeded seeded' t with
  | nil => exact .completes t rfl
  | cons op plan ih =>
    cases hop : op.isSeed with
    | true =>
      rw [executeFrom_cons_of_ok (step_of_isSeed hop params seeded t),
        Plan.unseeded_cons_of_isSeed hop]
      exact (ih (i + 1) j _ seeded' t).seed hop
    | false =>
      rw [Plan.unseeded_cons_of_not_isSeed hop]
      cases hstep : t.step params seeded op with
      | error fault =>
        rw [executeFrom, hstep, executeFrom, step_of_not_isSeed hop params seeded' seeded, hstep]
        exact .stops 0 op fault t rfl
      | ok r =>
        obtain ⟨next, n, note⟩ := r
        rw [executeFrom_cons_of_ok hstep,
          executeFrom_cons_of_ok (step_of_not_isSeed hop params seeded' seeded t ▸ hstep)]
        exact (ih (i + 1) (j + 1) _ _ next).cons hop

/-- Only the value of the first seed matters, and not where seeds stand. From any track, a plan and
the plan that sets its seed at the front and has no other seeds leave the same grid and the same
random stream. Both complete, and then each operation that is no seed has affected as much and has
left the same remark, in the same order. Or both end at the same operation, with the same operations
but for seeds in front of it, for the same reason; and those operations have done the same. -/
theorem execute_seedFirst (params : Params) (plan : Plan Float) (t : Track) :
    (t.execute params plan).2 = (t.execute params plan.seedFirst).2 ∧
    ((∃ reports reports', (t.execute params plan).1 = .ok reports ∧
        (t.execute params plan.seedFirst).1 = .ok reports' ∧
        Report.effects reports = Report.effects reports' ∧
        (Report.effects reports).map Prod.fst = plan.unseeded) ∨
      ∃ e e', (t.execute params plan).1 = .error e ∧
        (t.execute params plan.seedFirst).1 = .error e' ∧ e.op = e'.op ∧ e.fault = e'.fault ∧
        e'.index = (Plan.unseeded (plan.take e.index)).length + 1 ∧
        Report.effects e.completed = Report.effects e'.completed) := by
  -- The seed at the front leaves a report in the second execution, which is no effect.
  have hfirst : t.execute params plan.seedFirst =
      withReport ⟨0, .seed plan.seed, 0, some .seeded⟩
        (executeFrom params 1 true plan.unseeded (t.reseed plan.seed)) :=
    executeFrom_cons_of_ok (step_of_isSeed rfl params false (t.reseed plan.seed))
  have hsame := executeFrom_unseeded params plan 0 1 false true (t.reseed plan.seed)
  rw [hfirst, execute]
  rcases hrun : executeFrom params 0 false plan (t.reseed plan.seed) with ⟨result, last⟩
  rcases hrun' : executeFrom params 1 true plan.unseeded (t.reseed plan.seed) with ⟨result', last'⟩
  rw [hrun, hrun'] at hsame
  cases hsame with
  | @completes reports reports' _ heffects =>
    have hops := (executeFrom_reports (congrArg Prod.fst hrun)).1
    refine ⟨rfl, .inl ⟨reports, _, rfl, rfl, ?_, ?_⟩⟩
    · rw [heffects, Report.effects_cons_of_isSeed rfl]
    · rw [Report.map_fst_effects, hops]
  | @stops k op fault done done' _ heffects =>
    refine ⟨rfl, .inr ⟨_, _, rfl, rfl, rfl, rfl, ?_, ?_⟩⟩
    · dsimp only
      rw [Nat.zero_add, Nat.add_comm]
    · rw [Report.effects_cons_of_isSeed rfl, heffects]

/-- Two seeds, one of them behind a random operation and behind a build, of which only the value of
the first one counts. -/
example :
    Plan.seedFirst [.randomHoles 5, .seed 7, .build 2 2, .seed 9, .slopes 0 5 1] =
      [.seed 7, .randomHoles 5, .build 2 2, .slopes 0 5 1] :=
  rfl

end Track

end Raceway
