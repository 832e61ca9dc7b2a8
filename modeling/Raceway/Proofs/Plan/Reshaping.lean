import Mathlib
import Raceway.Proofs.Execution
import Raceway.Proofs.Grid.Reshaping
/-!
# Plans that differ in how they displace tiles

Two plans that differ in the curves, bends and smoothings that they have, and in the angles of their
slopes, lead to grids with the same holes. They are carried out side by side on tracks that agree
once all tiles are put in their places: an operation that both plans have keeps the tracks so and
affects as much on either side, and one that only one of them has leaves its flat track as it is.

## Main definitions

* `Raceway.Op.Reshaped`: what may become of an operation when a plan is reshaped.
* `Raceway.Grid.SameHoles`: two grids with tiles in the same places.
* `Raceway.Track.flatten`: a track with all tiles in their places.

## Main results

* `Raceway.Track.flatten_actAll_of_reshaped`: two plans carried out side by side.
* `Raceway.Track.sameHoles_of_reshaped`: the two grids have the same holes.
-/

namespace Raceway

/-! ### Reshaping a plan -/

/-- What may become of an operation when a plan is reshaped. -/
inductive Op.Reshaped : Op Float → Option (Op Float) → Prop
  /-- It stays. -/
  | keep (op : Op Float) : Reshaped op (some op)
  /-- The angles of slopes change. -/
  | slopes (low high low' high' : Float) (segment : UInt32) :
    Reshaped (.slopes low high segment) (some (.slopes low' high' segment))
  /-- A curve is left out. -/
  | noCurve (a b : UInt32) (side : Side) (degrees : Float) : Reshaped (.curve a b side degrees) none
  /-- A bend is left out. -/
  | noBend (a b : UInt32) (degrees gain ratio : Float) :
    Reshaped (.sBend a b degrees gain ratio) none
  /-- A smoothing is left out. -/
  | noSmoothing (passes : UInt32) : Reshaped (.smoothColumns passes) none

theorem Op.Reshaped.bind_seed? {op : Op Float} {kept : Option (Op Float)} (h : op.Reshaped kept) :
    kept.bind Op.seed? = op.seed? := by
  cases h <;> rfl

/-- Operations, each with what becomes of it. -/
abbrev Revision := List (Op Float × Option (Op Float))

namespace Revision

/-- The plan before. -/
def before (edits : Revision) : Plan Float :=
  edits.map Prod.fst

/-- The plan afterwards. -/
def after (edits : Revision) : Plan Float :=
  edits.filterMap Prod.snd

/-- Of what is known of each operation, what is known of those that are not left out. -/
def carry {β : Type} (edits : Revision) (known : List β) : List β :=
  (edits.zip known).filterMap fun (edit, b) => edit.2.map fun _ => b

theorem findSome?_seed?_after {edits : Revision} (h : ∀ edit ∈ edits, edit.1.Reshaped edit.2) :
    edits.after.findSome? Op.seed? = edits.before.findSome? Op.seed? := by
  induction edits with
  | nil => rfl
  | cons edit edits ih =>
    obtain ⟨op, kept⟩ := edit
    obtain ⟨hop, hedits⟩ := List.forall_mem_cons.mp h
    have hseed : kept.bind Op.seed? = op.seed? := hop.bind_seed?
    have hbefore : before ((op, kept) :: edits) = op :: before edits := rfl
    cases kept with
    | none =>
      have hafter : after ((op, none) :: edits) = after edits := rfl
      rw [hbefore, hafter, List.findSome?_cons, ← hseed, ih hedits]
      rfl
    | some op' =>
      have hafter : after ((op, some op') :: edits) = op' :: after edits := rfl
      rw [hbefore, hafter, List.findSome?_cons, List.findSome?_cons, ← hseed, ih hedits]
      rfl

/-- A plan that is reshaped keeps its seed. -/
theorem seed_after {edits : Revision} (h : ∀ edit ∈ edits, edit.1.Reshaped edit.2) :
    edits.after.seed = edits.before.seed := by
  rw [Plan.seed, Plan.seed, findSome?_seed?_after h]

end Revision

/-! ### Two tracks side by side -/

/-- The grids have the same rows, columns and margins, and tiles in the same places. -/
structure Grid.SameHoles (g g' : Grid) : Prop where
  rows : g.rows = g'.rows
  cols : g.cols = g'.cols
  marginStart : g.marginStart = g'.marginStart
  marginEnd : g.marginEnd = g'.marginEnd
  isSome_tile? (row col : UInt32) : (g.tile? row col).isSome = (g'.tile? row col).isSome

theorem Grid.sameHoles_of_flatten_eq {g g' : Grid} (h : g.flatten = g'.flatten) :
    g.SameHoles g' where
  rows := (congrArg Grid.rows h :)
  cols := (congrArg Grid.cols h :)
  marginStart := (congrArg Grid.marginStart h :)
  marginEnd := (congrArg Grid.marginEnd h :)
  isSome_tile? row col := by
    have hflat (g : Grid) : (g.tile? row col).isSome = (g.flatten.tile? row col).isSome := by
      rw [tile?, tile?, apply_ite Option.isSome, apply_ite Option.isSome, isSome_slotTile?_flatten]
      rfl
    rw [hflat g, hflat g', h]

theorem sameHoles_of_flatten_eq {grid grid' : Option Grid}
    (h : grid.map Grid.flatten = grid'.map Grid.flatten) : Option.Rel Grid.SameHoles grid grid' := by
  cases grid with
  | none =>
    rw [Option.map_eq_none_iff.mp h.symm]
    exact .none
  | some g =>
    obtain ⟨g', rfl, hg'⟩ := Option.map_eq_some_iff.mp h.symm
    exact .some (Grid.sameHoles_of_flatten_eq hg'.symm)

namespace Track

variable (params : Params) {t u : Track}

/-- The track with all tiles in their places. -/
def flatten (t : Track) : Track :=
  ⟨t.grid.map Grid.flatten, t.stream⟩

/-- An operation does and affects the same with all tiles in their places. -/
theorem act_flatten (op : Op Float) (t : Track) :
    (t.flatten.act params op).1.flatten = (t.act params op).1.flatten ∧
      (t.flatten.act params op).2 = (t.act params op).2 := by
  obtain ⟨_ | g, stream⟩ := t
  · exact ⟨by cases op <;> rfl, by cases op <;> rfl⟩
  have hsnd := Grid.act_flatten_snd params op g stream
  have hfst : (g.flatten.act params op stream).1.flatten = (g.act params op stream).1.flatten := by
    cases hop : op.reshapes with
    | false => rw [Grid.act_flatten_of_not_reshapes params hop, Prod.map_fst, Grid.flatten_flatten]
    | true =>
      rw [Grid.flatten_act_of_reshapes params hop, Grid.flatten_act_of_reshapes params hop,
        Grid.flatten_flatten]
  cases op with
  | build rows cols => exact ⟨rfl, rfl⟩
  | _ =>
    exact ⟨(congrArg₂ (fun g stream => (⟨some g, stream⟩ : Track)) hfst (congrArg Prod.fst hsnd) :),
      (congrArg Prod.snd hsnd :)⟩

/-- An operation keeps two tracks with the same holes so, and affects the same on both. -/
theorem act_of_flatten_eq (op : Op Float) (h : t.flatten = u.flatten) :
    (t.act params op).1.flatten = (u.act params op).1.flatten ∧
      (t.act params op).2 = (u.act params op).2 := by
  obtain ⟨htrack, hcount⟩ := act_flatten params op t
  obtain ⟨htrack', hcount'⟩ := act_flatten params op u
  rw [← htrack, ← hcount, ← htrack', ← hcount', h]
  exact ⟨rfl, rfl⟩

/-- What displaces tiles makes no difference to the flat grid. -/
theorem flatten_grid_act {op : Op Float} (h : op.reshapes = true) (t : Track) :
    (t.act params op).1.flatten.grid = t.flatten.grid := by
  obtain ⟨_ | g, stream⟩ := t
  · cases op <;> first | rfl | exact Bool.noConfusion h
  · have hgrid := congrArg some (Grid.flatten_act_of_reshapes params h g stream)
    cases op <;> first | exact hgrid | exact Bool.noConfusion h

/-- Slopes of other angles draw and affect the same. -/
theorem act_slopes (low high low' high' : Float) (segment : UInt32) (t : Track) :
    (t.act params (.slopes low high segment)).1.flatten =
        (t.act params (.slopes low' high' segment)).1.flatten ∧
      (t.act params (.slopes low high segment)).2 =
        (t.act params (.slopes low' high' segment)).2 := by
  have hgrid : (t.act params (.slopes low high segment)).1.flatten.grid =
      (t.act params (.slopes low' high' segment)).1.flatten.grid := by
    rw [flatten_grid_act params rfl, flatten_grid_act params rfl]
  have hstream : (t.act params (.slopes low high segment)).1.stream =
      (t.act params (.slopes low' high' segment)).1.stream := by
    obtain ⟨_ | g, stream⟩ := t
    · rfl
    · exact Grid.stream_lifts low high low' high' segment _ _ stream
  refine ⟨congrArg₂ Track.mk hgrid hstream, ?_⟩
  obtain ⟨_ | g, stream⟩ := t <;> rfl

/-! ### Two plans side by side -/

/-- An operation that is not left out keeps the two tracks the same. -/
theorem act_of_reshaped {op op' : Op Float} (hop : op.Reshaped (some op'))
    (h : t.flatten = u.flatten) :
    (t.act params op).1.flatten = (u.act params op').1.flatten ∧
      (t.act params op).2 = (u.act params op').2 := by
  cases hop with
  | keep => exact act_of_flatten_eq params op h
  | slopes low high low' high' segment =>
    obtain ⟨htrack, hcount⟩ := act_slopes params low high low' high' segment t
    rw [htrack, hcount]
    exact act_of_flatten_eq params _ h

/-- An operation that is left out makes no difference to the flat track. -/
theorem flatten_act_of_reshaped {op : Op Float} (hop : op.Reshaped none) (t : Track) :
    (t.act params op).1.flatten = t.flatten := by
  have hreshapes : op.reshapes = true := by cases hop <;> rfl
  have hrandom : op.isRandom = false := by cases hop <;> rfl
  exact congrArg₂ Track.mk (flatten_grid_act params hreshapes t) (stream_act hrandom t)

/-- A plan and a reshaped one, carried out side by side on tracks with the same holes, lead to
tracks with the same holes. What is not left out affects the same on both sides. -/
theorem flatten_actAll_of_reshaped {edits : Revision} (hedits : ∀ edit ∈ edits,
    edit.1.Reshaped edit.2) (h : t.flatten = u.flatten) :
    (t.actAll params edits.before).flatten = (u.actAll params edits.after).flatten ∧
      edits.carry (t.counts params edits.before) = u.counts params edits.after := by
  induction edits generalizing t u with
  | nil => exact ⟨h, rfl⟩
  | cons edit edits ih =>
    obtain ⟨op, kept⟩ := edit
    obtain ⟨hop, hrest⟩ := List.forall_mem_cons.mp hedits
    cases kept with
    | none => exact ih hrest ((flatten_act_of_reshaped params hop t).trans h)
    | some op' =>
      obtain ⟨htrack, hcount⟩ := act_of_reshaped params hop h
      obtain ⟨hlast, hcounts⟩ := ih hrest htrack
      exact ⟨hlast, congrArg₂ List.cons hcount hcounts⟩

variable {params}

/-- A plan is carried out, and so is one that is the same except for some curves, bends and
smoothings, which are left out, and for the angles of slopes. On the same track both lead to grids
with the same holes, if to any, and leave the random stream in the same state. Operations that are
not left out affect the same in both. -/
theorem sameHoles_of_reshaped {edits : Revision} {reports reports' : List Report} {last last' : Track}
    (hedits : ∀ edit ∈ edits, edit.1.Reshaped edit.2)
    (hbefore : t.execute params edits.before = (.ok reports, last))
    (hafter : t.execute params edits.after = (.ok reports', last')) :
    Option.Rel Grid.SameHoles last.grid last'.grid ∧ last.stream = last'.stream ∧
      edits.carry (reports.map (·.affected)) = reports'.map (·.affected) := by
  obtain ⟨hlast, -, haffected⟩ := execute_ok hbefore
  obtain ⟨hlast', -, haffected'⟩ := execute_ok hafter
  rw [Revision.seed_after hedits] at hlast' haffected'
  obtain ⟨htrack, hcounts⟩ := flatten_actAll_of_reshaped params hedits
    (rfl : (t.reseed edits.before.seed).flatten = _)
  rw [← hlast, ← hlast'] at htrack
  refine ⟨sameHoles_of_flatten_eq (congrArg Track.grid htrack :), (congrArg Track.stream htrack :), ?_⟩
  rw [haffected, haffected', hcounts]

/-- A curve and a smoothing are left out and slopes get other angles, in front of random holes. -/
theorem sameHoles_of_reshaped_holes :
    let edits : Revision :=
      [(.build 3 2, some (.build 3 2)), (.curve 0 2 .left 30, none),
        (.slopes (-5) 5 2, some (.slopes 0 9 2)), (.smoothColumns 1, none),
        (.randomHoles 50, some (.randomHoles 50))]
    ∃ reports reports' last last',
      Track.fresh.execute {} edits.before = (.ok reports, last) ∧
        Track.fresh.execute {} edits.after = (.ok reports', last') ∧
        Option.Rel Grid.SameHoles last.grid last'.grid ∧ last.stream = last'.stream ∧
        edits.carry (reports.map (·.affected)) = reports'.map (·.affected) := by
  intro edits
  have hedits : ∀ edit ∈ edits, edit.1.Reshaped edit.2 := by
    simp only [edits, List.forall_mem_cons]
    exact ⟨.keep _, .noCurve .., .slopes .., .noSmoothing _, .keep _, List.forall_mem_nil _⟩
  have hbefore : (Track.fresh.execute {} edits.before).1.isOk = true := by decide +kernel
  have hafter : (Track.fresh.execute {} edits.after).1.isOk = true := by decide +kernel
  rcases hrun : Track.fresh.execute {} edits.before with ⟨e | reports, last⟩
  · rw [hrun] at hbefore
    cases hbefore
  rcases hrun' : Track.fresh.execute {} edits.after with ⟨e | reports', last'⟩
  · rw [hrun'] at hafter
    cases hafter
  exact ⟨reports, reports', last, last', rfl, rfl, sameHoles_of_reshaped hedits hrun hrun'⟩

end Track

end Raceway
