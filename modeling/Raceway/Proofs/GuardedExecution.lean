import Mathlib
import Raceway.Execution
import Raceway.Proofs.Grid.GuardedShape
/-!
# Grids that stay laid out

A grid is built with at least one row and one column, with no more tiles than the limit allows, and
with one slot for each pair of a row and a column. Nothing that happens to it afterwards changes
that. So the operations on the live track, and whole plans of them, can be carried out with every
look at a place, every cut and every subtraction guarded: no guard is ever met, whatever the
arguments are and wherever an execution fails.

## Main definitions

* `Raceway.Grid.Proper`: what is true of every grid that has been built.
* `Raceway.Grid.Accessible`: looking up, changing and removing tiles meets no guard.
* `Raceway.TrackCall` and `Raceway.Track.callAll`: what can happen to the live track.

## Main results

* `Raceway.Grid.Laid.guardedAct_eq`: an operation on a grid that is laid out meets no guard.
* `Raceway.Track.guardedCallAll_eq`: nothing that happens to the live track meets a guard.
-/

namespace Raceway

open Raceway.Random Guarded

/-! ### Operations on a grid -/

namespace Grid

variable {g : Grid}

/-- What an operation does to the grid that is there and to the stream, with all guards. -/
def guardedAct (params : Params) (op : Op Float) (g : Grid) (stream : Stream) :
    Guarded (Grid × Stream × ℕ) :=
  match op with
  | .deleteRows a b => keep (guardedDeleteRows a b g)
  | .deleteTiles cols row => keep (guardedDeleteTiles cols row g)
  | .randomHoles percent => guardedHoles percent g stream
  | .jumpGaps n => keep (guardedGaps n g)
  | .curve a b side degrees =>
    keep (guardedDisplaceRows a b
      (curveOffset (side.sign * (radians degrees).tan * params.lateralScale.toFloat)) g)
  | .sBend a b degrees gain ratio =>
    keep (guardedDisplaceRows a b
      (bendOffset ((radians degrees).tan * params.lateralScale.toFloat * gain)
        (clampFloat 0.05 0.95 ratio)) g)
  | .slopes low high segment => guardedSlopes params low high segment g stream
  | .marginStart n => keep (return g.setMarginStart n)
  | .marginEnd n => keep (return g.setMarginEnd n)
  | .smoothColumns passes => keep (guardedSmoothColumns passes g)
  | _ => return (g, stream, 0)
where
  /-- A change of the grid that leaves the stream as it is. -/
  keep (x : Guarded (Grid × ℕ)) : Guarded (Grid × Stream × ℕ) := do
    let (g, n) ← x
    return (g, stream, n)

theorem guardedAct.keep_eq {stream : Stream} {x : Guarded (Grid × ℕ)} {r : Grid × ℕ}
    (h : x = .ok r) : guardedAct.keep stream x = .ok (act.keep stream r) := by
  rw [keep, h]
  rfl

/-- On a grid that is laid out, an operation meets no guard. -/
theorem Laid.guardedAct_eq (h : g.Laid) (params : Params) (op : Op Float) (stream : Stream) :
    g.guardedAct params op stream = .ok (g.act params op stream) := by
  cases op with
  | deleteRows a b => exact guardedAct.keep_eq (h.guardedDeleteRows_eq a b)
  | deleteTiles cols row => exact guardedAct.keep_eq (h.guardedDeleteTiles_eq cols row)
  | randomHoles percent => exact h.guardedHoles_eq percent stream
  | jumpGaps n => exact guardedAct.keep_eq (h.guardedGaps_eq n)
  | curve a b side degrees => exact guardedAct.keep_eq (h.guardedDisplaceRows_eq a b _)
  | sBend a b degrees gain ratio => exact guardedAct.keep_eq (h.guardedDisplaceRows_eq a b _)
  | slopes low high segment => exact h.guardedSlopes_eq params low high segment stream
  | smoothColumns passes => exact guardedAct.keep_eq (h.guardedSmoothColumns_eq passes)
  | _ => rfl

/-- An operation on a grid keeps the number of slots. -/
theorem size_act (params : Params) (op : Op Float) (g : Grid) (stream : Stream) :
    (g.act params op stream).1.slots.size = g.slots.size := by
  cases op with
  | deleteRows a b => exact size_mapTiles ..
  | deleteTiles cols row => exact size_mapTiles ..
  | randomHoles percent => exact size_foldl_drawHole ..
  | jumpGaps n =>
    refine foldl_eq_of_step (m := fun s : Grid × ℕ => s.1.slots.size) (fun s row => ?_) _ (g, 0)
    rw [cutGap]
    split_ifs
    · exact size_mapTiles ..
    · rfl
  | curve a b side degrees => exact size_mapTiles ..
  | sBend a b degrees gain ratio => exact size_mapTiles ..
  | slopes low high segment => exact size_mapTiles ..
  | smoothColumns passes => exact size_setHeights ..
  | _ => rfl

/-- Every row and column can be looked up, changed and removed without a misstep, also where it lies
outside of the grid. -/
structure Accessible (g : Grid) : Prop where
  tile? (row col : UInt32) : g.guardedTile? row col = .ok (g.tile? row col)
  setTile (row col : UInt32) (t : Tile) :
    guardedChange (fun _ => some t) row col g =
      .ok (g.setTile row col t, (g.tile? row col).isSome)
  removeTile (row col : UInt32) : guardedRemove row col g = .ok (g.removeTile row col)
  removeRow (row : UInt32) : guardedRemoveRow row g = .ok (g.removeRow row)
  moveRow (f : Tile → Tile) (row : UInt32) :
    guardedMoveRow f row g =
      .ok (g.mapTiles (g.rowSpan row) fun _ t => some (f t), g.rowTileCount row)

theorem Laid.accessible (h : g.Laid) : g.Accessible where
  tile? := h.guardedTile?_eq
  setTile row col t := by
    rw [h.guardedChange_eq, setTile, slotsAt]
    split_ifs <;> rfl
  removeTile := h.guardedRemove_eq
  removeRow := h.guardedRemoveRow_eq
  moveRow := h.guardedMoveRow_eq

/-- A grid that has been built: it is not empty, it keeps to the limit, and it is laid out. -/
structure Proper (params : Params) (g : Grid) : Prop where
  rows_pos : 1 ≤ g.rows
  cols_pos : 1 ≤ g.cols
  tiles_le : g.rows.toNat * g.cols.toNat ≤ params.maxTiles.toNat
  size_eq : g.slots.size = g.rows.toNat * g.cols.toNat

variable {params : Params}

theorem Proper.act (h : g.Proper params) (op : Op Float) (stream : Stream) :
    (g.act params op stream).1.Proper params := by
  obtain ⟨hrows, hcols, -⟩ := within_act params op g stream
  refine ⟨?_, ?_, ?_, ?_⟩
  · exact hrows ▸ h.rows_pos
  · exact hcols ▸ h.cols_pos
  · rw [hrows, hcols]
    exact h.tiles_le
  · rw [size_act, hrows, hcols]
    exact h.size_eq

theorem proper_full {rows cols : UInt32} (h : (Op.build rows cols).check params = .ok ()) :
    (full rows cols).Proper params := by
  have hpos {n : UInt32} (hn : n ≠ 0) : 1 ≤ n := by
    rw [UInt32.le_iff_toNat_le, UInt32.toNat_one]
    exact Nat.one_le_iff_ne_zero.mpr fun hzero => hn (UInt32.toNat_inj.mp hzero)
  rw [Op.check] at h
  split_ifs at h with hempty hlarge
  obtain ⟨hrows, hcols⟩ := not_or.mp hempty
  exact ⟨hpos hrows, hpos hcols, Nat.le_of_not_lt hlarge, size_full rows cols⟩

end Grid

/-! ### The live track -/

/-- Something that happens to the live track. -/
inductive TrackCall where
  /-- An operation is performed on it by itself, with a stream of its own. -/
  | perform (op : Op Float) (stream : Stream)
  /-- A plan is carried out on it. -/
  | execute (plan : Plan Float)

namespace Track

variable {params : Params} {t : Track}

/-- What is left of the live track. An operation that is not accepted leaves it as it is. -/
def call (params : Params) (t : Track) : TrackCall → Track
  | .perform op stream =>
    match perform params op ⟨t.grid, stream⟩ with
    | .ok (t, _) => t
    | .error _ => ⟨t.grid, stream⟩
  | .execute plan => (t.execute params plan).2

/-- What is left of the live track after things have happened to it in order. -/
def callAll (params : Params) (calls : List TrackCall) (t : Track) : Track :=
  calls.foldl (call params) t

/-- What an operation does to the live track, with all guards. -/
def guardedAct (params : Params) (op : Op Float) (t : Track) : Guarded (Track × ℕ) :=
  match op, t.grid with
  | .build rows cols, _ => do
    let size ← narrow (rows.toNat * cols.toNat)
    return (⟨some ⟨rows, cols, 0, 0, Array.replicate size (some Tile.flat)⟩, t.stream⟩, size)
  | _, none => return (t, 0)
  | op, some g => do
    let (g, stream, affected) ← g.guardedAct params op t.stream
    return (⟨some g, stream⟩, affected)

/-- Check the arguments of an operation and carry it out, with all guards. -/
def guardedPerform (params : Params) (op : Op Float) (t : Track) :
    Guarded (Except ArgumentError (Track × ℕ)) :=
  match op.check params with
  | .error e => return .error e
  | .ok () => .ok <$> t.guardedAct params op

/-- Carry out one operation of a plan, with all guards. -/
def guardedStep (params : Params) (seeded : Bool) (op : Op Float) (t : Track) :
    Guarded (Except ExecutionFault (Track × ℕ × Option Note)) :=
  match op.role with
  | .composite => return .error .composite
  | .fill => return .error .fill
  | .seed => return .ok (t, 0, some (if seeded then .seedIgnored else .seeded))
  | .create | .primitive =>
    if op.role ≠ .create ∧ t.grid.isNone then return .ok (t, 0, some .noGrid)
    else do
      match ← t.guardedPerform params op with
      | .ok (t, affected) => return .ok (t, affected, none)
      | .error e => return .error (.argument e)

/-- Carry out operations from a position of the plan on, with all guards. -/
def guardedExecuteFrom (params : Params) (index : ℕ) (seeded : Bool) :
    Plan Float → Track → Guarded (Except ExecutionError (List Report) × Track)
  | [], t => return (.ok [], t)
  | op :: rest, t => do
    match ← t.guardedStep params seeded op with
    | .error fault => return (.error ⟨index, op, fault, []⟩, t)
    | .ok (next, affected, note) =>
      let report : Report := ⟨index, op, affected, note⟩
      match ← guardedExecuteFrom params (index + 1) (seeded || op.isSeed) rest next with
      | (.ok reports, last) => return (.ok (report :: reports), last)
      | (.error e, last) =>
        return (.error { e with completed := report :: e.completed }, last)

/-- What is left of the live track, with all guards. -/
def guardedCall (params : Params) (t : Track) : TrackCall → Guarded Track
  | .perform op stream => do
    match ← guardedPerform params op ⟨t.grid, stream⟩ with
    | .ok (t, _) => return t
    | .error _ => return ⟨t.grid, stream⟩
  | .execute plan => do
    let (_, t) ← guardedExecuteFrom params 0 false plan (t.reseed plan.seed)
    return t

/-- What is left of the live track after things have happened to it in order, with all guards. -/
def guardedCallAll (params : Params) (calls : List TrackCall) (t : Track) : Guarded Track :=
  calls.foldlM (guardedCall params) t

/-- The grid of the track, if there is one, has been built. -/
def Proper (params : Params) (t : Track) : Prop :=
  ∀ g, t.grid = some g → g.Proper params

theorem Proper.act {op : Op Float} (hop : op.isCreate = false) (h : t.Proper params) :
    (t.act params op).1.Proper params := by
  obtain ⟨_ | g, stream⟩ := t
  · rwa [act_of_grid_none hop rfl]
  · have hproper (g' : Grid) (hg' : some (g.act params op stream).1 = some g') :
        g'.Proper params := Option.some.inj hg' ▸ (h g rfl).act op stream
    cases op <;> first | exact hproper | exact Bool.noConfusion hop

theorem Proper.perform {op : Op Float} {next : Track} {n : ℕ} (h : t.Proper params)
    (hperform : t.perform params op = .ok (next, n)) : next.Proper params := by
  have hnext := congrArg Prod.fst (perform_ok hperform)
  dsimp only at hnext
  rw [hnext]
  cases hop : op.isCreate with
  | false => exact h.act hop
  | true =>
    obtain ⟨rows, cols, rfl⟩ := Op.exists_build_of_isCreate hop
    obtain ⟨_, hcheck, -⟩ := bind_eq_ok hperform
    rintro g hg
    obtain rfl := Option.some.inj hg
    exact Grid.proper_full hcheck

theorem Proper.step {seeded : Bool} {op : Op Float} {r : Track × ℕ × Option Note}
    (h : t.Proper params) (hstep : t.step params seeded op = .ok r) : r.1.Proper params := by
  rcases step_cases hstep with ⟨-, heq⟩ | ⟨-, -, heq⟩ | hperform
  · rwa [(Prod.mk.inj heq).1]
  · rwa [(Prod.mk.inj heq).1]
  · exact h.perform hperform

/-! ### Executions -/

theorem Proper.guardedAct_eq (h : t.Proper params) (op : Op Float) :
    t.guardedAct params op = .ok (t.act params op) := by
  cases hop : op.isCreate with
  | true =>
    obtain ⟨rows, cols, rfl⟩ := Op.exists_build_of_isCreate hop
    have hmul := toNat_mul_toNat_le rows cols
    rw [guardedAct, narrow_eq (by omega)]
    rfl
  | false =>
    obtain ⟨_ | g, stream⟩ := t
    · rw [act_of_grid_none hop rfl]
      cases op <;> first | rfl | exact Bool.noConfusion hop
    · have hlaid : g.Laid := (h g rfl).size_eq
      have hact : (do
          let (g, stream, affected) ← g.guardedAct params op stream
          return ((⟨some g, stream⟩ : Track), affected)) =
            Except.ok (ε := Misstep) (⟨some (g.act params op stream).1,
              (g.act params op stream).2.1⟩, (g.act params op stream).2.2) := by
        rw [hlaid.guardedAct_eq]
        rfl
      cases op <;> first | exact hact | exact Bool.noConfusion hop

theorem Proper.guardedPerform_eq (h : t.Proper params) (op : Op Float) :
    t.guardedPerform params op = .ok (t.perform params op) := by
  rw [guardedPerform, Track.perform, h.guardedAct_eq]
  cases op.check params <;> rfl

theorem Proper.guardedStep_eq (h : t.Proper params) (seeded : Bool) (op : Op Float) :
    t.guardedStep params seeded op = .ok (t.step params seeded op) := by
  rw [guardedStep, Track.step, h.guardedPerform_eq]
  cases op.role with
  | create | primitive =>
    dsimp only
    split_ifs
    · rfl
    · cases t.perform params op <;> rfl
  | _ => rfl

theorem Proper.guardedExecuteFrom_eq (h : t.Proper params) (index : ℕ) (seeded : Bool)
    (plan : Plan Float) :
    guardedExecuteFrom params index seeded plan t = .ok (executeFrom params index seeded plan t) ∧
      (executeFrom params index seeded plan t).2.Proper params := by
  induction plan generalizing index seeded t with
  | nil => exact ⟨rfl, h⟩
  | cons op rest ih =>
    rw [guardedExecuteFrom, h.guardedStep_eq, ok_bind, executeFrom]
    cases hstep : t.step params seeded op with
    | error fault => exact ⟨rfl, h⟩
    | ok r =>
      obtain ⟨next, affected, note⟩ := r
      obtain ⟨hrest, hproper⟩ := ih (h.step hstep) (index + 1) (seeded || op.isSeed)
      dsimp only at hrest hproper ⊢
      rw [hrest, ok_bind]
      rcases hlast : executeFrom params (index + 1) (seeded || op.isSeed) rest next with
        ⟨e | reports, last⟩ <;> rw [hlast] at hproper <;> exact ⟨rfl, hproper⟩

theorem Proper.guardedCall_eq (h : t.Proper params) (c : TrackCall) :
    t.guardedCall params c = .ok (t.call params c) ∧ (t.call params c).Proper params := by
  cases c with
  | perform op stream =>
    have hstart : Proper params ⟨t.grid, stream⟩ := h
    rw [guardedCall, hstart.guardedPerform_eq, ok_bind, call]
    cases hperform : Track.perform params op ⟨t.grid, stream⟩ with
    | ok r => exact ⟨rfl, hstart.perform hperform⟩
    | error e => exact ⟨rfl, hstart⟩
  | execute plan =>
    have hstart : (t.reseed plan.seed).Proper params := fun g hg => h g (by rwa [grid_reseed] at hg)
    obtain ⟨hguarded, hproper⟩ := hstart.guardedExecuteFrom_eq 0 false plan
    rw [guardedCall, hguarded]
    exact ⟨rfl, hproper⟩

theorem Proper.guardedCallAll_eq (h : t.Proper params) (calls : List TrackCall) :
    t.guardedCallAll params calls = .ok (t.callAll params calls) ∧
      (t.callAll params calls).Proper params := by
  induction calls generalizing t with
  | nil => exact ⟨rfl, h⟩
  | cons c calls ih =>
    obtain ⟨hfirst, hproper⟩ := h.guardedCall_eq c
    rw [guardedCallAll, foldlM_cons_of_ok hfirst]
    exact ih hproper

/-- Whatever happens to a live track that starts without a grid, whether it succeeds or fails and
with any arguments, meets no guard: no place outside of the slots is looked up, no range that does
not lie in them is cut out, and no word is subtracted from a smaller one. What is left either has no
grid, or one with rows and columns within the limit and with one slot for each pair of them, where
each row and column can be looked up, changed and removed without meeting a guard. -/
theorem guardedCallAll_of_grid_none (params : Params) (calls : List TrackCall)
    (hgrid : t.grid = none) :
    t.guardedCallAll params calls = .ok (t.callAll params calls) ∧
      ∀ g, (t.callAll params calls).grid = some g → g.Proper params ∧ g.Accessible := by
  have hstart : t.Proper params := fun g hg => by
    rw [hgrid] at hg
    cases hg
  obtain ⟨hguarded, hproper⟩ := hstart.guardedCallAll_eq calls
  refine ⟨hguarded, fun g hg => ⟨hproper g hg, ?_⟩⟩
  have hlaid : g.Laid := (hproper g hg).size_eq
  exact hlaid.accessible

/-- A build that is not accepted, a plan that fails behind removals in and outside of the grid, and
a curve between rows that are swapped. -/
theorem guardedCallAll_of_grid_none_swapped :
    let stream := Stream.ofSeed 5
    let calls : List TrackCall :=
      [.perform (.build 0 3) stream,
        .execute [.build 4 3, .deleteTiles [1, 9, 0] 2, .deleteRows 7 3, .randomHoles 50,
          .smoothColumns 0],
        .perform (.curve 9 1 .left 30) stream]
    let t : Track := ⟨none, stream⟩
    t.grid = none ∧ t.guardedCallAll {} calls = .ok (t.callAll {} calls) ∧
      ∃ g, (t.callAll {} calls).grid = some g ∧ g.rows = 4 ∧ g.slots.size = 12 ∧ g.Accessible := by
  intro stream calls t
  obtain ⟨hguarded, hgrid⟩ := guardedCallAll_of_grid_none (t := t) {} calls rfl
  have hbuilt : ((t.callAll {} calls).grid.any fun g => g.rows == 4 && g.cols == 3) = true := by
    decide +kernel
  cases hg : (t.callAll {} calls).grid with
  | none =>
    rw [hg] at hbuilt
    cases hbuilt
  | some g =>
    rw [hg, Option.any_some, Bool.and_eq_true, beq_iff_eq, beq_iff_eq] at hbuilt
    obtain ⟨hproper, haccessible⟩ := hgrid g hg
    refine ⟨rfl, hguarded, g, rfl, hbuilt.1, ?_, haccessible⟩
    rw [hproper.size_eq, hbuilt.1, hbuilt.2]
    rfl

/-- Where a slot is missing, the guard is met. -/
example : Grid.guardedTile? ⟨2, 2, 0, 0, #[none, none, none]⟩ 1 1 = .error (.place 3 3) := rfl

end Track

end Raceway
