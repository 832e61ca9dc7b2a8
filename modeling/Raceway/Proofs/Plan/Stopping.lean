import Mathlib
import Raceway.Proofs.Execution
/-!
# Where an execution stops

An execution ends at the first operation that the track turns down: one that stands for others, a
fill directive, or one whose arguments are not accepted. Which one that is depends on the arguments
and on whether there is a grid, never on the tiles or on the random stream. The operations in front
of it have been carried out and reported, on a stream that starts from the seed of the whole plan,
which may be set behind the place where the execution ends. Nothing else has happened to the track.

## Main definitions

* `Raceway.Track.Refuses`: the track turns an operation down.
* `Raceway.Track.StopsAt`: an execution that ends on the way.

## Main results

* `Raceway.Track.step_eq_error_iff`: the operations that cannot be carried out.
* `Raceway.Track.execute_eq_error_iff`: what an execution that ends on the way has done.
-/

namespace Raceway

namespace Track

variable {params : Params} {seeded : Bool} {op : Op Float} {plan : Plan Float} {t last : Track}

/-! ### Operations that are turned down -/

/-- The track turns an operation down, for the given reason. Without a grid, arguments are looked at
only where a grid is built. -/
inductive Refuses (params : Params) (t : Track) (op : Op Float) : ExecutionFault → Prop
  /-- The operation stands for others. -/
  | composite (h : op.role = .composite) : Refuses params t op .composite
  /-- The operation is a fill directive. -/
  | fill (h : op.role = .fill) : Refuses params t op .fill
  /-- The arguments are not accepted. -/
  | argument {e : ArgumentError} (h : op.check params = .error e)
      (hgrid : op.isCreate = true ∨ t.grid.isSome = true) : Refuses params t op (.argument e)

/-- Only operations that act on a grid have arguments that are not accepted. -/
theorem role_of_check_eq_error {e : ArgumentError} (h : op.check params = .error e) :
    op.role = .create ∨ op.role = .primitive := by
  cases op <;> first | exact .inl rfl | exact .inr rfl | cases h

theorem perform_eq_error_iff {e : ArgumentError} :
    t.perform params op = .error e ↔ op.check params = .error e := by
  rw [perform]
  cases op.check params with
  | ok u => constructor <;> (intro h; cases h)
  | error e' =>
    constructor <;> exact fun h => congrArg _ (Except.error.inj h)

/-- An operation that acts on a grid is performed, if there is one or it builds one. -/
theorem step_of_acts (hrole : op.role = .create ∨ op.role = .primitive)
    (hgrid : op.isCreate = true ∨ t.grid.isSome = true) :
    t.step params seeded op =
      ((t.perform params op).map fun r => (r.1, r.2, none)).mapError .argument := by
  have hacts : ¬ (op.role ≠ .create ∧ t.grid.isNone = true) := by
    rintro ⟨hcreate, hnone⟩
    rcases hgrid with hgrid | hgrid
    · exact hcreate (beq_iff_eq.mp hgrid)
    · rw [Option.isSome_iff_ne_none] at hgrid
      exact hgrid (Option.isNone_iff_eq_none.mp hnone)
  rw [step]
  rcases hrole with hrole | hrole <;> rw [hrole] at hacts ⊢ <;> dsimp only <;>
    rw [if_neg hacts] <;> cases t.perform params op <;> rfl

/-- An operation that acts on a grid finds none. -/
theorem step_of_grid_none (hrole : op.role = .primitive) (hgrid : t.grid = none) :
    t.step params seeded op = .ok (t, 0, some .noGrid) := by
  rw [step, hrole, hgrid]
  rfl

/-- A step fails exactly where the track turns the operation down. -/
theorem step_eq_error_iff {fault : ExecutionFault} :
    t.step params seeded op = .error fault ↔ t.Refuses params op fault := by
  constructor
  · intro h
    have hargument (hrole : op.role = .create ∨ op.role = .primitive)
        (hgrid : op.isCreate = true ∨ t.grid.isSome = true) : t.Refuses params op fault := by
      rw [step_of_acts hrole hgrid] at h
      cases hperform : t.perform params op with
      | ok r =>
        rw [hperform] at h
        cases h
      | error e =>
        rw [hperform] at h
        obtain rfl := Except.error.inj h
        exact .argument (perform_eq_error_iff.mp hperform) hgrid
    cases hrole : op.role with
    | composite =>
      rw [step, hrole] at h
      exact Except.error.inj h ▸ .composite hrole
    | fill =>
      rw [step, hrole] at h
      exact Except.error.inj h ▸ .fill hrole
    | seed =>
      rw [step, hrole] at h
      cases h
    | create => exact hargument (.inl hrole) (.inl (beq_iff_eq.mpr hrole))
    | primitive =>
      cases hgrid : t.grid with
      | none =>
        rw [step_of_grid_none hrole hgrid] at h
        cases h
      | some g => exact hargument (.inr hrole) (.inr (by rw [hgrid]; rfl))
  · rintro (h | h | ⟨h, hgrid⟩)
    · rw [step, h]
    · rw [step, h]
    · rw [step_of_acts (role_of_check_eq_error h) hgrid, perform_eq_error_iff.mpr h]
      rfl

/-! ### Executions that end on the way -/

/-- What an execution gives whose first operation has left a report, from what the rest of it
gives. -/
def withReport (report : Report) :
    Except ExecutionError (List Report) × Track → Except ExecutionError (List Report) × Track
  | (.error e, last) => (.error { e with completed := report :: e.completed }, last)
  | (.ok reports, last) => (.ok (report :: reports), last)

/-- An execution that goes on after its first operation. -/
theorem executeFrom_cons_of_ok {index n : ℕ} {next : Track} {note : Option Note}
    (h : t.step params seeded op = .ok (next, n, note)) :
    executeFrom params index seeded (op :: plan) t =
      withReport ⟨index, op, n, note⟩
        (executeFrom params (index + 1) (seeded || op.isSeed) plan next) := by
  rw [executeFrom, h]
  dsimp only
  rcases executeFrom params (index + 1) (seeded || op.isSeed) plan next with ⟨_ | _, last⟩ <;> rfl

/-- An execution ends at an operation that the track turns down. The operations in front of it are
carried out with success. -/
theorem exists_of_executeFrom {index : ℕ} {e : ExecutionError}
    (h : executeFrom params index seeded plan t = (.error e, last)) :
    ∃ before after, plan = before ++ e.op :: after ∧ e.index = index + before.length ∧
      executeFrom params index seeded before t = (.ok e.completed, last) ∧
      last.Refuses params e.op e.fault := by
  induction plan generalizing index seeded t e with
  | nil => cases h
  | cons op plan ih =>
    cases hstep : t.step params seeded op with
    | error fault =>
      rw [executeFrom, hstep] at h
      obtain ⟨herror, rfl⟩ := Prod.mk.inj h
      obtain rfl := Except.error.inj herror
      exact ⟨[], plan, rfl, rfl, rfl, step_eq_error_iff.mp hstep⟩
    | ok r =>
      obtain ⟨next, n, note⟩ := r
      rw [executeFrom_cons_of_ok hstep] at h
      rcases hrest : executeFrom params (index + 1) (seeded || op.isSeed) plan next
        with ⟨e' | rest, last'⟩ <;> rw [hrest] at h
      · obtain ⟨herror, rfl⟩ := Prod.mk.inj h
        obtain rfl := Except.error.inj herror
        obtain ⟨before, after, hplan, hindex, hbefore, hrefuses⟩ := ih hrest
        refine ⟨op :: before, after, congrArg (op :: ·) hplan, ?_, ?_, hrefuses⟩
        · rw [List.length_cons]
          dsimp only
          omega
        · rw [executeFrom_cons_of_ok hstep, hbefore]
          rfl
      · cases h

/-- Behind operations that are carried out with success, an execution ends at one that the track
turns down. -/
theorem executeFrom_of_refuses {index : ℕ} {before : Plan Float} (after : Plan Float)
    {reports : List Report} {fault : ExecutionFault}
    (hbefore : executeFrom params index seeded before t = (.ok reports, last))
    (hrefuses : last.Refuses params op fault) :
    executeFrom params index seeded (before ++ op :: after) t =
      (.error ⟨index + before.length, op, fault, reports⟩, last) := by
  induction before generalizing index seeded t reports with
  | nil =>
    obtain ⟨hreports, rfl⟩ := Prod.mk.inj hbefore
    obtain rfl := Except.ok.inj hreports
    rw [List.nil_append, executeFrom, step_eq_error_iff.mpr hrefuses]
    rfl
  | cons first before ih =>
    cases hstep : t.step params seeded first with
    | error fault =>
      rw [executeFrom, hstep] at hbefore
      cases hbefore
    | ok r =>
      obtain ⟨next, n, note⟩ := r
      rw [executeFrom_cons_of_ok hstep] at hbefore
      rcases hrest : executeFrom params (index + 1) (seeded || first.isSeed) before next
        with ⟨e' | rest, last'⟩ <;> rw [hrest] at hbefore
      · cases hbefore
      · obtain ⟨hreports, rfl⟩ := Prod.mk.inj hbefore
        obtain rfl := Except.ok.inj hreports
        rw [List.cons_append, executeFrom_cons_of_ok hstep, ih hrest, withReport,
          List.length_cons, Nat.add_right_comm, Nat.add_assoc]

/-- The reports of an execution that completes are numbered in order. -/
theorem map_index_executeFrom {index : ℕ} {reports : List Report}
    (h : (executeFrom params index seeded plan t).1 = .ok reports) :
    reports.map (·.index) = List.range' index plan.length := by
  induction plan generalizing index seeded t reports with
  | nil =>
    obtain rfl := Except.ok.inj h
    rfl
  | cons op plan ih =>
    cases hstep : t.step params seeded op with
    | error fault =>
      rw [executeFrom, hstep] at h
      cases h
    | ok r =>
      obtain ⟨next, n, note⟩ := r
      rw [executeFrom_cons_of_ok hstep] at h
      rcases hrest : executeFrom params (index + 1) (seeded || op.isSeed) plan next
        with ⟨e' | rest, last⟩ <;> rw [hrest] at h
      · cases h
      · obtain rfl := Except.ok.inj h
        rw [List.map_cons, ih (congrArg Prod.fst hrest), List.length_cons, List.range'_succ]

/-- An execution of a plan that ends on the way. -/
structure StopsAt (params : Params) (plan : Plan Float) (t : Track) (e : ExecutionError)
    (last : Track) : Prop where
  /-- It ends at an operation of the plan. -/
  op_eq : plan[e.index]? = some e.op
  /-- On a stream that starts from the seed of the whole plan, the operations in front of it are
  carried out with success as a plan of their own. Their reports are those of the execution, and
  what they leave of the track is what the execution leaves. -/
  before : executeFrom params 0 false (plan.take e.index) (t.reseed plan.seed) =
    (.ok e.completed, last)
  /-- So the track is where these operations bring it, one after the other. -/
  track_eq : last = (t.reseed plan.seed).actAll params (plan.take e.index)
  /-- There is one report for each of them, in order. -/
  index_reports : e.completed.map (·.index) = List.range e.index
  op_reports : e.completed.map (·.op) = plan.take e.index
  affected_reports :
    e.completed.map (·.affected) = (t.reseed plan.seed).counts params (plan.take e.index)
  /-- The track turns down the operation at which it ends. -/
  refuses : last.Refuses params e.op e.fault

/-- An execution fails exactly where the operations in front of a place have been carried out and
reported, and the one at that place is turned down. It leaves the track where they have brought it,
on a stream that starts from the seed of the whole plan. -/
theorem execute_eq_error_iff {e : ExecutionError} :
    t.execute params plan = (.error e, last) ↔ t.StopsAt params plan e last := by
  constructor
  · intro h
    obtain ⟨before, after, hplan, hindex, hbefore, hrefuses⟩ := exists_of_executeFrom h
    rw [Nat.zero_add] at hindex
    have htake : plan.take e.index = before := by rw [hplan, hindex, List.take_left]
    have hop : plan[e.index]? = some e.op := by
      rw [hplan, hindex, List.getElem?_append_right le_rfl, Nat.sub_self, List.getElem?_cons_zero]
    have hok := congrArg Prod.fst hbefore
    have hlast := congrArg Prod.snd hbefore
    have hindices := map_index_executeFrom hok
    obtain ⟨hops, hcounts⟩ := executeFrom_reports hok
    rw [executeFrom_ok hok] at hlast
    rw [← hindex, ← List.range_eq_range'] at hindices
    rw [← htake] at hbefore hlast hops hcounts
    exact ⟨hop, hbefore, hlast.symm, hindices, hops, hcounts, hrefuses⟩
  · intro h
    obtain ⟨hlt, hop⟩ := List.getElem?_eq_some_iff.mp h.op_eq
    have hplan : plan = plan.take e.index ++ e.op :: plan.drop (e.index + 1) := by
      rw [← hop, ← List.drop_eq_getElem_cons hlt, List.take_append_drop]
    have hstop := executeFrom_of_refuses (plan.drop (e.index + 1)) h.before h.refuses
    rw [← hplan, List.length_take_of_le hlt.le, Nat.zero_add] at hstop
    exact hstop

end Track

end Raceway
