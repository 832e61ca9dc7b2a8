import Mathlib
import Raceway.Proofs.Plan.Refill
import Raceway.Proofs.Plan.Stopping
import Raceway.Proofs.Session.Seeds
/-!
# Plans whose operations can all be carried out

A merge takes the fill directives of a request for itself, and drops those that a kept text may
hold. A drawn seed is no fill directive, and what a composite operation stands for is neither one
nor composite again. So a request that is not carried out to its end has come to an operation whose
arguments are not accepted, whatever the request, the rulebook and the kept text are.

## Main definitions

* `Raceway.Op.IsDirect`: the operation is carried out on the track itself.

## Main results

* `Raceway.Plan.isDirect_of_mem_expand`: an expanded plan has no composite operations.
* `Raceway.exists_argument_of_edit`: why a request is not carried out to its end.
-/

namespace Raceway

open Storage

/-- The operation is carried out on the track itself: it does not stand for others, and it is no
fill directive. -/
def Op.IsDirect {α : Type} (op : Op α) : Prop :=
  op.role ≠ .composite ∧ op.isFill = false

namespace Plan

variable {plan : Plan Float} {op : Op Float}

/-! ### Seeding -/

theorem isFill_of_mem_withSeed {draw : SeedDraw} (hplan : ∀ op ∈ plan, op.isFill = false)
    (h : op ∈ (plan.withSeed draw).plan) : op.isFill = false := by
  rw [withSeed] at h
  split_ifs at h
  · rcases List.mem_cons.mp h with rfl | h
    · rfl
    · exact hplan op h
  · exact hplan op h

/-! ### Expanding -/

/-- What an operation stands for is carried out on the track itself, unless it is a fill
directive. -/
theorem isDirect_of_mem_expandOp {default : UInt32} {layout : Layout Float} {source : Op Float}
    (hsource : source.isFill = false) (h : op ∈ (expandOp default layout source).2) :
    op.IsDirect := by
  have hstands := standsFor_of_mem_expandOp h
  refine ⟨hstands.role_ne_composite, ?_⟩
  cases hstands with
  | itself _ => exact hsource
  | fork => rfl
  | rejoin => rfl
  | smoothHeights => rfl

/-- An expanded plan has operations that are carried out on the track itself, if there were no fill
directives. -/
theorem isDirect_of_mem_expand {default : UInt32} (hplan : ∀ op ∈ plan, op.isFill = false)
    (h : op ∈ (plan.expand default).1) : op.IsDirect := by
  obtain ⟨source, hsource, layout, hop⟩ := exists_mem_of_mem_expandFrom h
  exact isDirect_of_mem_expandOp (hplan source hsource) hop

end Plan

/-- An operation that is carried out on the track itself is turned down for its arguments alone. -/
theorem Track.Refuses.exists_argument {params : Params} {t : Track} {op : Op Float}
    {fault : ExecutionFault} (h : t.Refuses params op fault) (hop : op.IsDirect) :
    ∃ e, fault = .argument e ∧ op.check params = .error e := by
  cases h with
  | composite hrole => exact absurd hrole hop.1
  | fill hrole =>
    rw [Op.IsDirect, Op.isFill, hrole] at hop
    exact Bool.noConfusion hop.2
  | argument hcheck hgrid => exact ⟨_, rfl, hcheck⟩

/-- An execution of a plan whose operations are all carried out on the track itself ends at one
whose arguments are not accepted, if it does not complete. -/
theorem Track.exists_argument_of_execute {params : Params} {plan : Plan Float} {t last : Track}
    {e : ExecutionError} (hplan : ∀ op ∈ plan, op.IsDirect)
    (h : t.execute params plan = (.error e, last)) :
    e.op ∈ plan ∧ ∃ a, e.fault = .argument a ∧ e.op.check params = .error a := by
  obtain ⟨before, after, heq, -, -, hrefuses⟩ := exists_of_executeFrom h
  have hop : e.op ∈ plan := by
    rw [heq]
    exact List.mem_append_right _ List.mem_cons_self
  exact ⟨hop, hrefuses.exists_argument (hplan e.op hop)⟩

/-! ### Requests -/

variable {σ : Type} {storage : Storage (StateM σ)} {settings : Settings} {book : Rulebook}
  {request : String} {s s' : σ} {t track : Track} {result : Except Failure Outcome}

/-- A request has a plan whose operations are carried out on the track itself. -/
theorem isDirect_of_draft {kept : Option String} {d : Draft}
    (hdraft : draft settings book request kept = .ok d) (draw : SeedDraw) {default : UInt32}
    {op : Op Float} (h : op ∈ ((d.merge.plan.withSeed draw).plan.expand default).1) :
    op.IsDirect := by
  obtain ⟨previous, skipped, -, hmerge⟩ := exists_amend_of_draft hdraft
  refine Plan.isDirect_of_mem_expand (fun op hop => ?_) h
  refine Plan.isFill_of_mem_withSeed (fun op hop => ?_) hop
  rw [hmerge] at hop
  exact Plan.isFill_of_mem_amend rfl hop

theorem execute_of_perform_eq_error {params : Params} {plan : Plan Float} {findings : List Finding}
    {e : ExecutionError} (h : perform params plan findings t = (.error e, track)) :
    t.execute params (plan.expand params.defaultCols).1 = (.error e, track) := by
  have htrack := congrArg Prod.snd h
  have hresult := congrArg Prod.fst h
  rw [perform_track] at htrack
  simp only [perform] at hresult
  refine Prod.ext ?_ htrack
  cases hexecute : (t.execute params (plan.expand params.defaultCols).1).1 with
  | error e' =>
    rw [hexecute] at hresult
    exact congrArg Except.error (Except.error.inj hresult)
  | ok reports =>
    rw [hexecute] at hresult
    cases hresult

theorem Draft.answer_eq_execution {d : Draft} {done : Except ExecutionError Performance}
    {e : ExecutionError} (h : d.answer done = .error (.execution e)) : done = .error e := by
  cases done with
  | error fault => rw [Failure.execution.inj (Except.error.inj h)]
  | ok done => cases h

/-- A request that is not carried out to its end has come to an operation that does not accept its
arguments, never to one that stands for others or to a fill directive. One that is carried out has
carried out neither of these. This holds for any storage and any text that it brings back. -/
theorem exists_argument_of_edit
    (hrun : (edit storage settings book request t).run s = ((result, track), s')) :
    (∀ e, result = .error (.execution e) →
      e.op.IsDirect ∧ ∃ a, e.fault = .argument a ∧ e.op.check settings.params = .error a) ∧
    ∀ o, result = .ok o → ∀ op ∈ o.executed, op.IsDirect := by
  obtain ⟨result₁, track₁, calls, s₁, hedit⟩ := exists_editRun storage settings book request t s
  obtain ⟨heq, rfl⟩ := Prod.mk.inj (hedit.run_eq.symm.trans hrun)
  obtain ⟨rfl, rfl⟩ := Prod.mk.inj heq
  cases hedit with
  | notLoaded hload => exact ⟨nofun, nofun⟩
  | notRead hload hdraft => exact ⟨nofun, nofun⟩
  | notSaved hload hdraft hseed hsave => exact ⟨nofun, nofun⟩
  | saved hload hdraft hseed hsave hrecord hperform =>
    obtain ⟨draw, rfl, -⟩ := hseed.exists_withSeed
    refine ⟨fun e he => ?_, fun o ho => ?_⟩
    · obtain rfl := Draft.answer_eq_execution he
      obtain ⟨hop, hargument⟩ := Track.exists_argument_of_execute
        (fun op hop => isDirect_of_draft hdraft draw hop) (execute_of_perform_eq_error hperform)
      exact ⟨isDirect_of_draft hdraft draw hop, hargument⟩
    · obtain rfl := Draft.answer_eq_ok ho
      rw [(perform_ok hperform).2.1]
      exact fun op hop => isDirect_of_draft hdraft draw hop

/-- The request is not carried out to its end, and the error passes a test. -/
def endsWhere (p : ExecutionError → Bool) : Except Failure Outcome → Bool
  | .error (.execution e) => p e
  | _ => false

theorem exists_of_endsWhere {p : ExecutionError → Bool} (h : endsWhere p result = true) :
    ∃ e, result = .error (.execution e) ∧ p e = true := by
  rw [endsWhere.eq_def] at h
  split at h
  · exact ⟨_, rfl, h⟩
  · cases h

/-- The kept text has been edited by hand: it holds a fill directive and a fork, and a smoothing
without passes behind them. -/
theorem exists_argument_of_edit_fork :
    let storage := Memory.storage {} ⟨7, 0⟩
    let kept := "fillAll()\nbuildAbs(4,3)\nySplit(0,1,1,1)\nsmoothColumns(0)\n"
    let run := (edit storage {} ⟨1, [], []⟩ "" Track.fresh).run { plan := some kept }
    ∃ e, run.1.1 = .error (.execution e) ∧ e.index = 3 ∧
      e.op.IsDirect ∧ ∃ a, e.fault = .argument a ∧ e.op.check {} = .error a := by
  intro storage kept run
  have hends : endsWhere (·.index == 3) run.1.1 = true := by decide +kernel
  obtain ⟨e, hresult, hindex⟩ := exists_of_endsWhere hends
  have hparts (r : (Except Failure Outcome × Track) × Memory) : r = ((r.1.1, r.1.2), r.2) := rfl
  exact ⟨e, hresult, beq_iff_eq.mp hindex, (exists_argument_of_edit (hparts run)).1 e hresult⟩

end Raceway
