import Mathlib
import Raceway.Proofs.Execution
import Raceway.Proofs.Grid.Counting
/-!
# The tiles that a plan leaves

The reports of an execution account for all tiles: the grid that is there at the end has the tiles
of the last grid that was built, or of the grid at the start if none was, without those that are
reported as removed since then. No tile comes back that is gone, except with a new grid.

## Main definitions

* `Raceway.Report.removed` and `Raceway.Report.totalRemoved`: the tiles that are reported as removed.
* `Raceway.Track.tile?`: the tile at a row and a column of the grid, if there is one.

## Main results

* `Raceway.Track.tileCount_actAll`: operations that build no grid account for the tiles they remove.
* `Raceway.Track.tileCount_execute`: the reports of an execution account for all tiles.
-/

namespace Raceway

/-! ### Reports of removals -/

/-- The number of tiles that are reported as removed. -/
def Report.removed (r : Report) : ℕ :=
  if r.op.removes then r.affected else 0

/-- The number of tiles that some reports say were removed. -/
def Report.totalRemoved (reports : List Report) : ℕ :=
  (reports.map removed).sum

/-- The number of tiles that some operations remove, given how many tiles or rows they affect. -/
def Plan.removedBy : Plan Float → List ℕ → ℕ
  | op :: ops, n :: counts => (if op.removes then n else 0) + removedBy ops counts
  | _, _ => 0

theorem Report.totalRemoved_eq (reports : List Report) :
    totalRemoved reports = Plan.removedBy (reports.map (·.op)) (reports.map (·.affected)) := by
  induction reports with
  | nil => rfl
  | cons r reports ih =>
    rw [totalRemoved] at ih ⊢
    rw [List.map_cons, List.sum_cons, ih]
    rfl

namespace Track

variable (params : Params) {t : Track}

/-! ### Operations in order -/

/-- Where operations build a grid, they go on from a full one. -/
theorem exists_of_build {ops : Plan Float} {j : ℕ} {rows cols : UInt32}
    (h : ops[j]? = some (.build rows cols)) (t : Track) :
    ∃ u : Track, u.tileCount = rows.toNat * cols.toNat ∧
      (t.counts params ops)[j]? = some (rows.toNat * cols.toNat) ∧
      (t.counts params ops).drop (j + 1) = u.counts params (ops.drop (j + 1)) ∧
      t.actAll params ops = u.actAll params (ops.drop (j + 1)) := by
  induction ops generalizing j t with
  | nil => cases h
  | cons op ops ih =>
    cases j with
    | zero =>
      obtain rfl := Option.some.inj h
      exact ⟨(t.act params (.build rows cols)).1, Grid.tileCount_full rows cols, rfl, rfl, rfl⟩
    | succ j => exact ih h (t.act params op).1

/-- An operation that builds no grid accounts for the tiles that it removes. -/
theorem tileCount_act {op : Op Float} (hop : op.isCreate = false) (t : Track) :
    (t.act params op).1.tileCount + (if op.removes then (t.act params op).2 else 0) =
      t.tileCount := by
  obtain ⟨_ | g, stream⟩ := t
  · rw [act_of_grid_none hop rfl, ite_self, Nat.add_zero]
  · have hcount := Grid.tileCount_act params op g stream
    cases op <;> first | exact hcount | exact Bool.noConfusion hop

/-- Operations that build no grid account for the tiles that they remove. -/
theorem tileCount_actAll {ops : Plan Float} (hops : ops.any Op.isCreate = false) (t : Track) :
    (t.actAll params ops).tileCount + Plan.removedBy ops (t.counts params ops) = t.tileCount := by
  induction ops generalizing t with
  | nil => rfl
  | cons op ops ih =>
    rw [List.any_cons, Bool.or_eq_false_iff] at hops
    have hfirst := tileCount_act params hops.1 t
    have hrest := ih hops.2 (t.act params op).1
    rw [actAll_cons, counts, Plan.removedBy]
    omega

/-! ### Places without a tile -/

/-- The tile at a row and a column, if there is a grid with one. -/
def tile? (t : Track) (row col : UInt32) : Option Tile :=
  t.grid.bind (·.tile? row col)

theorem tile?_act {op : Op Float} (hop : op.isCreate = false) {row col : UInt32}
    (h : t.tile? row col = none) : (t.act params op).1.tile? row col = none := by
  obtain ⟨_ | g, stream⟩ := t
  · rwa [act_of_grid_none hop rfl]
  · have hnone := (Grid.within_act params op g stream).tile?_eq_none h
    cases op <;> first | exact hnone | exact Bool.noConfusion hop

/-- Where there is no tile, there is none as long as no grid is built. -/
theorem tile?_actAll {ops : Plan Float} (hops : ops.any Op.isCreate = false) {row col : UInt32}
    (h : t.tile? row col = none) : (t.actAll params ops).tile? row col = none := by
  induction ops generalizing t with
  | nil => exact h
  | cons op ops ih =>
    rw [List.any_cons, Bool.or_eq_false_iff] at hops
    exact ih hops.2 (tile?_act params hops.1 h)

/-! ### Executions -/

theorem tileCount_reseed (t : Track) (seed : UInt64) :
    (t.reseed seed).tileCount = t.tileCount := by
  rw [tileCount, grid_reseed, tileCount]

/-- A plan that is carried out to its end reports its operations. If it builds no grid, the tiles at
the end and those that are reported as removed are the tiles at the start. Otherwise they are, from
the last grid on that it builds, the tiles that are reported for that one. From any position of a plan
on, as long as no grid is built no tile is put where there is none, whether the plan is carried out
to its end or not. -/
theorem tileCount_execute :
    (∀ {params : Params} {plan : Plan Float} {t last : Track} {reports : List Report},
      t.execute params plan = (.ok reports, last) →
        reports.map (·.op) = plan ∧
        (plan.any Op.isCreate = false →
          last.tileCount + Report.totalRemoved reports = t.tileCount) ∧
        ∀ j rows cols, plan[j]? = some (.build rows cols) →
          (plan.drop (j + 1)).any Op.isCreate = false →
          ∃ r, reports[j]? = some r ∧ r.op = .build rows cols ∧
            last.tileCount + Report.totalRemoved (reports.drop (j + 1)) = r.affected) ∧
    ∀ (params : Params) (index : ℕ) (seeded : Bool) {ops : Plan Float} {t : Track}
      {row col : UInt32}, ops.any Op.isCreate = false → t.tile? row col = none →
        (executeFrom params index seeded ops t).2.tile? row col = none := by
  refine ⟨fun {params plan t last reports} h => ?_,
    fun params index seeded {ops t row col} hops hnone => ?_⟩
  · obtain ⟨hlast, hops, hcounts⟩ := execute_ok h
    refine ⟨hops, fun hplan => ?_, fun j rows cols hj hrest => ?_⟩
    · have hcount := tileCount_actAll params hplan (t.reseed plan.seed)
      rwa [← hlast, tileCount_reseed, ← hcounts, ← hops, ← Report.totalRemoved_eq] at hcount
    · obtain ⟨u, hu, hcount, hcounts', hlast'⟩ := exists_of_build params hj
        (t.reseed plan.seed)
      rw [← hcounts, List.getElem?_map] at hcount
      obtain ⟨r, hr, haffected⟩ := Option.map_eq_some_iff.mp hcount
      have hop : r.op = .build rows cols := by
        have hget : (reports.map (·.op))[j]? = some r.op := by rw [List.getElem?_map, hr]; rfl
        rw [hops, hj] at hget
        exact (Option.some.inj hget).symm
      have htotal := tileCount_actAll params hrest u
      rw [← hlast', ← hlast, ← hcounts', ← hcounts, ← hops, ← List.map_drop, ← List.map_drop,
        ← Report.totalRemoved_eq, hu] at htotal
      exact ⟨r, hr, hop, htotal.trans haffected.symm⟩
  · obtain ⟨done, hdone, hlast⟩ := exists_executeFrom_eq params index seeded ops t
    rw [hlast]
    refine tile?_actAll params (List.any_eq_false.mpr fun op hop => ?_) hnone
    exact List.any_eq_false.mp hops op (hdone.subset hop)

/-- A grid is built with holes, and then another one, in which a row is removed that is partly gone
and rows that are not there. -/
theorem tileCount_execute_holes :
    let plan : Plan Float :=
      [.build 2 2, .randomHoles 50, .build 3 2, .deleteTiles [2, 9, 2] 1, .curve 0 2 .left 30,
        .deleteRows 7 1, .randomHoles 50]
    (∃ reports last r, Track.fresh.execute {} plan = (.ok reports, last) ∧ reports[2]? = some r ∧
      last.tileCount + Report.totalRemoved (reports.drop 3) = r.affected ∧ r.affected = 6) ∧
    (Track.fresh.execute {} [.curve 0 2 .left 30, .fillAll]).2.tile? 0 0 = none := by
  intro plan
  have hok : (Track.fresh.execute {} plan).1.isOk = true := by decide +kernel
  have hsix : (Track.fresh.execute {} plan).1.toOption.bind (fun reports =>
      reports[2]?.map (·.affected)) = some 6 := by decide +kernel
  refine ⟨?_, tileCount_execute.2 {} 0 false rfl rfl⟩
  rcases hrun : Track.fresh.execute {} plan with ⟨e | reports, last⟩
  · rw [hrun] at hok
    cases hok
  · obtain ⟨r, hr, -, hcount⟩ := (tileCount_execute.1 hrun).2.2 2 3 2 rfl rfl
    rw [hrun] at hsix
    simp only [Except.toOption, Option.bind_some, hr, Option.map_some, Option.some.injEq] at hsix
    exact ⟨reports, last, r, rfl, hr, hcount, hsix⟩

end Track

end Raceway
