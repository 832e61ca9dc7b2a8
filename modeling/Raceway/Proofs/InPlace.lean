import Mathlib
import Raceway.Execution
/-!
# Operations in place

An operation that is refused gives an error, and an error says nothing of the track. Here operations
change the live track in place, one step after the other: a check that fails ends the operation
where it stands, with the track that the steps before it have left. Checks come before changes, so
a refused operation leaves the grid and the stream as they were. A plan that is carried out in
place ends with the reports, the error and the track of `Raceway.Track.execute`.

## Main definitions

* `Raceway.InPlace`: changes of the live track that may be refused on their way.
* `Raceway.InPlace.perform`, `Raceway.InPlace.step` and `Raceway.InPlace.execute`: an operation, a
  step of an execution, and a plan in place.

## Main results

* `Raceway.InPlace.run_perform` and `Raceway.InPlace.track_of_refused`: an operation in place does
  what the operation does, and nothing where it is refused.
* `Raceway.InPlace.run_execute`: a plan in place.
-/

namespace Raceway

variable {ε α β σ : Type} {params : Params} {op : Op Float} {t t' : Track}

/-- A change of the live track in place. Where it is refused, the track is what it has been changed
to up to there. -/
abbrev InPlace (ε α : Type) : Type := EStateM ε Track α

namespace InPlace

/-! ### Operations -/

/-- Go on only if a condition does not hold. -/
def refuseIf (p : Prop) [Decidable p] (e : ArgumentError) : InPlace ArgumentError Unit :=
  if p then throw e else return ()

/-- Go on only with an angle below a right angle. -/
def refuseAngle (param : String) (x : Float) : InPlace ArgumentError Unit :=
  refuseIf (¬ x.abs < 90) (.angle param x)

/-- Go on with the grid that is there. Without one the count stays. -/
def onGrid (count : ℕ) (f : Grid → InPlace ε ℕ) : InPlace ε ℕ := do
  match (← get).grid with
  | none => return count
  | some g => f g

/-- Put a grid in the place of the one that is there. -/
def replace (r : Grid × ℕ) : InPlace ε ℕ := do
  modify fun t => ⟨some r.1, t.stream⟩
  return r.2

/-- Draw from the stream. -/
def draw : InPlace ε Float :=
  modifyGet fun t => (t.stream.unit.1, ⟨t.grid, t.stream.unit.2⟩)

/-- Draw for the tile in a slot, if there is one outside the margins, and remove it where the draw
is below the threshold. -/
def drawHole (threshold : Float) (removed i : ℕ) : InPlace ε ℕ :=
  onGrid removed fun g => do
    if (g.slotTile? i).isSome && !g.isProtected (g.rowOf i) then
      if (← draw) < threshold then
        replace ({ g with slots := Grid.mapSlot (fun _ => none) i g.slots }, removed + 1)
      else return removed
    else return removed

/-- Remove the row of a gap, unless it is protected. -/
def cutGap (removed : ℕ) (row : UInt32) : InPlace ε ℕ :=
  onGrid removed fun g => do
    if row < g.rows && !g.isProtected row then
      return removed + (← replace (g.removeRow row))
    else return removed

/-- Check the arguments of an operation and carry it out. -/
def perform (params : Params) : Op Float → InPlace ArgumentError ℕ
  | .build rows cols => do
    refuseIf (rows = 0 ∨ cols = 0) (.emptyGrid rows cols)
    refuseIf (rows.toNat * cols.toNat > params.maxTiles.toNat)
      (.largeGrid rows cols params.maxTiles)
    replace (Grid.full rows cols, rows.toNat * cols.toNat)
  | .deleteRows a b => onGrid 0 fun g => replace (g.deleteRows a b)
  | .deleteTiles cols row => onGrid 0 fun g => replace (g.deleteTiles cols row)
  | .randomHoles percent => do
    refuseIf (¬ (0 ≤ percent ∧ percent ≤ 100)) (.percent percent)
    onGrid 0 fun g => (List.range g.slots.size).foldlM (drawHole (percent / 100)) 0
  | .jumpGaps n => onGrid 0 fun g => (Grid.gapRows Float g.rows n).foldlM cutGap 0
  | .curve a b side degrees => do
    refuseAngle "deg" degrees
    onGrid 0 fun g => replace (g.curve params a b side degrees)
  | .sBend a b degrees gain ratio => do
    refuseAngle "deg" degrees
    onGrid 0 fun g => replace (g.sBend params a b degrees gain ratio)
  | .slopes low high segment => do
    refuseIf (segment = 0) .emptySegment
    refuseAngle "minDeg" low
    refuseAngle "maxDeg" high
    onGrid 0 fun g => modifyGet fun t =>
      let (g, stream, raised) := g.slopes params low high segment t.stream
      (raised, ⟨some g, stream⟩)
  | .marginStart n => onGrid 0 fun g => replace (g.setMarginStart n)
  | .marginEnd n => onGrid 0 fun g => replace (g.setMarginEnd n)
  | .smoothColumns passes => do
    refuseIf (passes = 0) .noPasses
    onGrid 0 fun g => replace (g.smoothColumns passes)
  | _ => return 0

/-! ### Plans -/

/-- Carry out one operation of a plan. -/
def step (params : Params) (seeded : Bool) (op : Op Float) :
    InPlace ExecutionFault (ℕ × Option Note) :=
  match op.role with
  | .composite => throw .composite
  | .fill => throw .fill
  | .seed => return (0, some (if seeded then .seedIgnored else .seeded))
  | .create | .primitive => do
    if op.role ≠ .create ∧ (← get).grid.isNone then return (0, some .noGrid)
    else return (← (perform params op).adaptExcept .argument, none)

/-- Carry out operations from a position of the plan on. The reports so far travel along, and go
with the error. -/
def executeFrom (params : Params) (index : ℕ) (seeded : Bool) (completed : List Report) :
    Plan Float → InPlace ExecutionError (List Report)
  | [] => return completed
  | op :: rest => do
    let (affected, note) ← (step params seeded op).adaptExcept (⟨index, op, ·, completed⟩)
    executeFrom params (index + 1) (seeded || op.isSeed)
      (completed ++ [⟨index, op, affected, note⟩]) rest

/-- Carry out a plan, on a stream that starts from its seed. -/
def execute (params : Params) (plan : Plan Float) : InPlace ExecutionError (List Report) := do
  modify (·.reseed plan.seed)
  executeFrom params 0 false [] plan

/-! ### What is left of the track -/

/-- A result with the track that is left, where an error leaves the track from before. -/
def unlessRefused (t : Track) : Except ε (Track × α) → EStateM.Result ε Track α
  | .ok (next, a) => .ok a next
  | .error e => .error e t

/-- A result with the track that is left, whether it is an error or not. -/
def withTrack : Except ε α × Track → EStateM.Result ε Track α
  | (.ok a, last) => .ok a last
  | (.error e, last) => .error e last

/-- The rest is carried out only if the condition does not hold. -/
theorem run_refuseIf_bind (p : Prop) [Decidable p] (e : ArgumentError)
    (f : Unit → InPlace ArgumentError α) (t : Track) :
    (refuseIf p e >>= f).run t = if p then .error e t else (f ()).run t := by
  rw [refuseIf]
  split_ifs <;> rfl

/-- A loop that is never refused does to the track what a fold does to what the track is made of. -/
theorem run_foldlM {view : σ → Track} {count : σ → ℕ} {next : σ → α → σ} {f : ℕ → α → InPlace ε ℕ}
    (h : ∀ s a, (f (count s) a).run (view s) = .ok (count (next s a)) (view (next s a)))
    (l : List α) (s : σ) :
    (l.foldlM f (count s)).run (view s) = .ok (count (l.foldl next s)) (view (l.foldl next s)) := by
  induction l generalizing s with
  | nil => rfl
  | cons a l ih =>
    rw [List.foldlM_cons, EStateM.run_bind, h]
    exact ih (next s a)

/-! ### Operations in place -/

/-- Random removals in place go through the slots as the removal from a grid does. -/
theorem run_drawHole (g : Grid) (threshold : Float) (s : Grid.Holes) (i : ℕ) :
    let view (s : Grid.Holes) : Track := ⟨some { g with slots := s.slots }, s.stream⟩
    let next := g.drawHole threshold s i
    (drawHole threshold s.removed i : InPlace ε ℕ).run (view s) = .ok next.removed (view next) := by
  intro view next
  -- The rows and the margins are those of the grid at the start, whatever has been removed.
  change (ite ((Grid.slotTile? { g with slots := s.slots } i).isSome &&
    !g.isProtected (g.rowOf i)) _ _ : InPlace ε ℕ) (view s) = _
  dsimp only [next]
  rw [Grid.drawHole, Grid.slotTile?]
  split_ifs with htile
  · change (ite (s.stream.unit.1 < threshold) _ _ : InPlace ε ℕ) _ = _
    dsimp only
    split_ifs <;> rfl
  · rfl

theorem run_cutGap (stream : Random.Stream) (s : Grid × ℕ) (row : UInt32) :
    let next := Grid.cutGap s row
    (cutGap s.2 row : InPlace ε ℕ).run ⟨some s.1, stream⟩ = .ok next.2 ⟨some next.1, stream⟩ := by
  intro next
  change (ite (row < s.1.rows && !s.1.isProtected row) _ _ : InPlace ε ℕ) _ = _
  dsimp only [next]
  rw [Grid.cutGap]
  split_ifs <;> rfl

/-- An operation in place gives what the operation gives, and leaves the track as it was where it is
refused. -/
theorem run_perform (params : Params) (op : Op Float) (t : Track) :
    (perform params op).run t = unlessRefused t (t.perform params op) := by
  obtain ⟨grid, stream⟩ := t
  rw [Track.perform]
  cases op with
  | build rows cols =>
    rw [perform, run_refuseIf_bind, run_refuseIf_bind, Op.check]
    split_ifs <;> rfl
  | randomHoles percent =>
    rw [perform, run_refuseIf_bind, Op.check]
    split_ifs
    · cases grid with
      | none => rfl
      | some g => exact run_foldlM (run_drawHole g (percent / 100)) _ ⟨g.slots, stream, 0⟩
    · rfl
  | jumpGaps n =>
    cases grid with
    | none => rfl
    | some g => exact run_foldlM (run_cutGap stream) _ (g, 0)
  | curve a b side degrees =>
    rw [perform, refuseAngle, run_refuseIf_bind, Op.check, checkAngle]
    split_ifs <;> cases grid <;> rfl
  | sBend a b degrees gain ratio =>
    rw [perform, refuseAngle, run_refuseIf_bind, Op.check, checkAngle]
    split_ifs <;> cases grid <;> rfl
  | slopes low high segment =>
    rw [perform, refuseAngle, refuseAngle, run_refuseIf_bind, run_refuseIf_bind,
      run_refuseIf_bind, Op.check, checkAngle, checkAngle]
    split_ifs <;> cases grid <;> rfl
  | smoothColumns passes =>
    rw [perform, run_refuseIf_bind, Op.check]
    split_ifs <;> cases grid <;> rfl
  | _ => cases grid <;> rfl

/-- A refused operation leaves the grid and the stream as they were. -/
theorem track_of_refused {e : ArgumentError} (h : (perform params op).run t = .error e t') :
    t' = t ∧ t.perform params op = .error e := by
  rw [run_perform] at h
  cases hperform : t.perform params op with
  | ok r =>
    rw [hperform] at h
    cases h
  | error e' =>
    rw [hperform] at h
    obtain ⟨rfl, rfl⟩ := EStateM.Result.error.inj h
    exact ⟨rfl, rfl⟩

example (t : Track) : (perform {} (.build 0 3)).run t = .error (.emptyGrid 0 3) t := rfl

/-! ### Plans in place -/

/-- A step in place gives what the step gives, and leaves the track as it was where it is
refused. -/
theorem run_step (params : Params) (seeded : Bool) (op : Op Float) (t : Track) :
    (step params seeded op).run t = unlessRefused t (t.step params seeded op) := by
  rw [step, Track.step]
  cases op.role with
  | create | primitive =>
    dsimp only
    rw [EStateM.run_bind, EStateM.run_get]
    dsimp only
    split_ifs
    · rfl
    · rw [EStateM.run_bind, EStateM.run_adaptExcept, run_perform]
      cases t.perform params op <;> rfl
  | _ => rfl

/-- Operations in place give what the operations give, behind the reports so far. -/
theorem run_executeFrom (params : Params) (index : ℕ) (seeded : Bool) (completed : List Report)
    (ops : Plan Float) (t : Track) :
    (executeFrom params index seeded completed ops).run t =
      match Track.executeFrom params index seeded ops t with
      | (.ok reports, last) => .ok (completed ++ reports) last
      | (.error e, last) => .error { e with completed := completed ++ e.completed } last := by
  induction ops generalizing index seeded completed t with
  | nil => exact congrArg (EStateM.Result.ok · t) (List.append_nil completed).symm
  | cons op ops ih =>
    rw [executeFrom, Track.executeFrom, EStateM.run_bind, EStateM.run_adaptExcept, run_step]
    cases t.step params seeded op with
    | error fault => simp only [unlessRefused, List.append_nil]
    | ok r =>
      obtain ⟨next, affected, note⟩ := r
      dsimp only [unlessRefused]
      rw [ih]
      rcases Track.executeFrom params (index + 1) (seeded || op.isSeed) ops next with
        ⟨e | reports, last⟩ <;> simp only [List.append_assoc, List.singleton_append]

/-- A plan in place gives the reports, or the error, and the track of the plan. -/
theorem run_execute (params : Params) (plan : Plan Float) (t : Track) :
    (execute params plan).run t = withTrack (t.execute params plan) := by
  rw [execute, EStateM.run_bind, EStateM.run_modify]
  dsimp only
  rw [run_executeFrom, Track.execute]
  rcases Track.executeFrom params 0 false plan (t.reseed plan.seed) with ⟨e | reports, last⟩ <;> rfl

end InPlace

end Raceway
