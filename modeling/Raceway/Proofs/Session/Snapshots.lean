import Mathlib
import Raceway.Proofs.Session.Reload
import Raceway.Proofs.Session.WorkshopFiles
/-!
# Snapshots and the plans that they come with

A workshop writes the live grid into its snapshot together with the plan that is kept. The plan of a
request is kept before it is carried out, so the two go together as long as the newest request was
carried out to its end: the plan then builds the grid from nothing. After a request that came to an
end on the way, the snapshot holds a plan that cannot be carried out at all, with a grid that it does
not lead to.

## Main definitions

* `Raceway.Workshop.Event` and `Raceway.Workshop.runAll`: what happens in a workshop.
* `Raceway.Editor.aborted`: the newest request was not carried out to its end.

## Main results

* `Raceway.Editor.pairs_apply`: what a request makes of the kept plan and the live grid.
* `Raceway.Workshop.snapshot_of_runAll`: when a snapshot holds the plan that its grid comes from.
* `Raceway.Workshop.exists_snapshot_not_completes`: a snapshot whose plan cannot be carried out.
-/

namespace Raceway

open Storage

/-! ### Plans from nothing -/

namespace Plan

variable {params : Params} {plan : Plan Float} {t track : Track}

/-- The plan builds the grid from nothing. -/
def LeadsTo (params : Params) (plan : Plan Float) (grid : Option Grid) : Prop :=
  ∀ u : Track, u.grid = none → u.Completes params (plan.expand params.defaultCols).1 ∧
    (u.execute params (plan.expand params.defaultCols).1).2.grid = grid

/-- From nothing, the plan is not carried out to its end. -/
def Fails (params : Params) (plan : Plan Float) : Prop :=
  ∀ u : Track, u.grid = none → ¬ u.Completes params (plan.expand params.defaultCols).1

theorem leadsTo_nil (params : Params) : LeadsTo params [] none :=
  fun _ hu => ⟨⟨[], rfl⟩, Track.grid_execute_eq_none List.any_nil hu⟩

/-- A plan that governs the grid is carried out to its end from nothing if it is from the grid. -/
theorem Governs.completes_of_none {u : Track} (h : plan.Governs t.grid) (hu : u.grid = none)
    (hdone : u.Completes params plan) : t.Completes params plan := by
  rcases h with h | ⟨-, hgrid⟩
  · have heq : t.execute params plan = u.execute params plan :=
      Track.executeFrom_eq_of_buildsFirst h rfl hdone.choose_spec
    rwa [Track.Completes, heq]
  · rw [Track.Completes, Track.execute_of_grid_eq (hgrid.trans hu.symm)]
    exact hdone

/-- Carrying out a plan that governs the grid tells what the plan does from nothing. -/
theorem Governs.perform_cases {findings : List Finding}
    {result : Except ExecutionError Performance} (h : plan.Governs t.grid)
    (hperform : Raceway.perform params plan findings t = (result, track)) :
    ((∃ fault, result = .error fault) ∧ plan.Fails params) ∨
      (∃ done, result = .ok done) ∧ plan.LeadsTo params track.grid := by
  cases result with
  | error fault =>
    refine .inl ⟨⟨fault, rfl⟩, fun u hu hdone => ?_⟩
    obtain ⟨reports, hreports⟩ := (h.expand params.defaultCols).completes_of_none hu hdone
    have hresult := congrArg Prod.fst hperform
    simp only [Raceway.perform, hreports] at hresult
    cases hresult
  | ok done =>
    refine .inr ⟨⟨done, rfl⟩, fun u hu => ?_⟩
    have hbuilds := (h.perform hperform).2 done rfl u hu
    rwa [(perform_ok hperform).2.1] at hbuilds

end Plan

/-! ### The newest request -/

/-- The request was kept, and not carried out to its end. -/
def Verdict.isAborted : Verdict → Bool
  | failed stage _ => stage == "execute"
  | applied _ => false

/-- The newest request was kept, and not carried out to its end. -/
def Editor.aborted (e : Editor) : Bool :=
  e.history.entries.getLast?.any (·.verdict.isAborted)

theorem History.getLast?_entries_push {α : Type} (h : History α) (a : α) :
    (h.push a).entries.getLast? = some a := by
  rw [entries_push, lastEntries, List.getLast?_drop, if_neg, List.getLast?_concat]
  rw [List.length_append, List.length_singleton, capacity]
  omega

/-- The kept plan and the live grid go together: the plan builds the grid from nothing, unless the
newest request was not carried out to its end, when it builds nothing. -/
structure Editor.Pairs (settings : Settings) (kept : Option String) (e : Editor) : Prop where
  /-- The settings are the given ones. -/
  settings_eq : e.settings = settings
  /-- Without a rulebook, no request is kept. -/
  refused : e.rules.isOk = false → e.aborted = false
  /-- The kept plan governs the grid. -/
  governed : Governed kept e.track.grid
  /-- The kept plan builds the grid, or builds nothing. -/
  exists_plan : ∃ plan : Plan Float, kept.getD "" = plan.text ∧ plan.IsWritable ∧
    if e.aborted then plan.Fails settings.params else plan.LeadsTo settings.params e.track.grid

variable {σ : Type} {settings : Settings} {kept : Option String} {e : Editor}

/-- Before anything has happened. -/
theorem Editor.pairs_of_none (hsettings : e.settings = settings) (hgrid : e.track.grid = none)
    (hhistory : e.history.entries = []) : e.Pairs settings none := by
  have haborted : e.aborted = false := by rw [aborted, hhistory]; rfl
  refine ⟨hsettings, fun _ => haborted, hgrid ▸ governed_none, [], rfl, List.forall_mem_nil _, ?_⟩
  rw [haborted, if_neg Bool.false_ne_true, hgrid]
  exact Plan.leadsTo_nil settings.params

/-- A request that is turned down changes nothing but the history. -/
theorem Editor.pairs_refuse {error : RulebookError} (h : e.Pairs settings kept)
    (hrules : e.rules.isOk = false) (r : Request) : (e.refuse error r).Pairs settings kept := by
  have haborted : (e.refuse error r).aborted = e.aborted := by
    rw [h.refused hrules, aborted, refuse, History.getLast?_entries_push]
    rfl
  obtain ⟨plan, htext, hw, hplan⟩ := h.exists_plan
  exact ⟨h.settings_eq, fun _ => haborted.trans (h.refused hrules), h.governed, plan, htext, hw,
    haborted ▸ hplan⟩

/-- Nothing happens where no request waits. -/
theorem Editor.run_applyWaiting_nil (storage : Storage (StateM σ)) (h : e.waiting = []) (s : σ) :
    (e.applyWaiting storage).run s = (e, s) := by
  obtain ⟨rules, settings, track, waiting, history⟩ := e
  obtain rfl : waiting = [] := h
  cases rules <;> rfl

/-! ### A request -/

namespace Workshop

variable {disk : Disk (StateM σ)} {draw : StateM σ SeedDraw} {places : Places} {p : Path}
  {ok : σ → Prop} {keep : σ → Option String} {shot : σ → Option ByteArray}

namespace FilesWork

variable {s s' : σ}

theorem seeding {plan : Plan Float} {seeded : Seeded Float} {draws : List StorageCall}
    (h : FilesWork disk draw places p ok keep shot) (hok : ok s)
    (hseed : Seeding (storage disk draw places) plan s seeded draws s') :
    ok s' ∧ keep s' = keep s ∧ shot s' = shot s := by
  cases hseed with
  | none hneeds => exact ⟨hok, rfl, rfl⟩
  | drawn hneeds hdraw => exact h.draw hok hdraw

theorem recording {entry : Option SeedEntry} {unrecorded : Option (SeedEntry × StoreError)}
    {records : List StorageCall} (h : FilesWork disk draw places p ok keep shot) (hok : ok s)
    (hrecord : Recording (storage disk draw places) s entry unrecorded records s') :
    ok s' ∧ keep s' = keep s ∧ shot s' = shot s := by
  cases hrecord with
  | nothing => exact ⟨hok, rfl, rfl⟩
  | recorded hrun => exact (h.record hok hrun).2
  | failed hrun => exact (h.record hok hrun).2

/-- A request is kept, and leaves the snapshot as it is. Its plan governs the grid that it leads to,
and builds that grid from nothing, or nothing at all if it was not carried out to its end. -/
theorem edit {book : Rulebook} {request : String} {t track : Track}
    {result : Except Failure Outcome} {calls : List StorageCall}
    (h : FilesWork disk draw places p ok keep shot) (hok : ok s) (hgoverned : Governed (keep s) t.grid)
    (hedit : EditRun (storage disk draw places) settings book request t s result track calls s') :
    ok s' ∧ shot s' = shot s ∧ ∃ plan : Plan Float, keep s' = some plan.text ∧ plan.IsWritable ∧
      plan.Governs track.grid ∧
      if (Verdict.ofResult result).isAborted then plan.Fails settings.params
      else plan.LeadsTo settings.params track.grid := by
  cases hedit with
  | notLoaded hload => cases (h.load hok hload).1
  | notRead hload hdraft =>
    obtain ⟨hkept, -⟩ := h.load hok hload
    obtain rfl := Except.ok.inj hkept
    obtain ⟨d, hdraft', -⟩ := hgoverned.draft settings book request
    cases hdraft.symm.trans hdraft'
  | notSaved hload hdraft hseed hsave =>
    obtain ⟨-, hok₁, -⟩ := h.load hok hload
    obtain ⟨hok₂, -⟩ := h.seeding hok₁ hseed
    cases (h.save hok₂ hsave).1
  | @saved _ d _ _ _ _ _ _ _ _ done _ hload hdraft hseed hsave hrecord hperform =>
    obtain ⟨hkept, hok₁, -, hshot₁⟩ := h.load hok hload
    obtain rfl := Except.ok.inj hkept
    obtain ⟨hok₂, -, hshot₂⟩ := h.seeding hok₁ hseed
    obtain ⟨-, hok₃, hkeep, hshot₃⟩ := h.save hok₂ hsave
    obtain ⟨hok₄, hkeep₄, hshot₄⟩ := h.recording hok₃ hrecord
    obtain ⟨d', hdraft', hw, hgoverns⟩ := hgoverned.draft settings book request
    obtain rfl := Except.ok.inj (hdraft.symm.trans hdraft')
    obtain ⟨draw, rfl, -⟩ := hseed.exists_withSeed
    have hgoverns := hgoverns.withSeed draw
    refine ⟨hok₄, hshot₄.trans (hshot₃.trans (hshot₂.trans hshot₁)),
      (d.merge.plan.withSeed draw).plan, hkeep₄.trans hkeep, hw.withSeed draw,
      (hgoverns.perform hperform).1, ?_⟩
    obtain ⟨⟨fault, rfl⟩, hfails⟩ | ⟨⟨done, rfl⟩, hleads⟩ := hgoverns.perform_cases hperform
    · exact hfails
    · exact hleads

end FilesWork

/-! ### Rounds -/

/-- A request that is carried out is kept with the grid that it leads to. -/
theorem FilesWork.apply {s s' : σ} {book : Rulebook} {e' : Editor} {r : Request}
    (h : FilesWork disk draw places p ok keep shot) (hok : ok s) (hpairs : e.Pairs settings (keep s))
    (hrules : e.rules.isOk = true)
    (hrun : (e.apply (storage disk draw places) book r).run s = (e', s')) :
    ok s' ∧ shot s' = shot s ∧ e'.rules = e.rules ∧ e'.Pairs settings (keep s') := by
  obtain ⟨result, track, calls, s₁, hedit⟩ :=
    exists_editRun (storage disk draw places) e.settings book r.text e.track s
  rw [Editor.apply, run_bind_eq hedit.run_eq] at hrun
  obtain ⟨rfl, rfl⟩ := Prod.mk.inj hrun
  rw [hpairs.settings_eq] at hedit
  obtain ⟨hok', hshot, plan, hkeep, hw, hgoverns, hplan⟩ := h.edit hok hpairs.governed hedit
  have haborted : Editor.aborted { e with track, history := e.history.push ⟨r, .ofResult result⟩ } =
      (Verdict.ofResult result).isAborted := by
    rw [Editor.aborted, History.getLast?_entries_push]
    rfl
  refine ⟨hok', hshot, rfl, hpairs.settings_eq, fun hno => ?_, ?_, plan, ?_, hw, ?_⟩
  · rw [hrules] at hno
    cases hno
  · rw [hkeep]
    exact governed_text hw hgoverns
  · rw [hkeep, Option.getD_some]
  · rw [haborted]
    exact hplan

theorem FilesWork.foldlM_apply {s s' : σ} {book : Rulebook} {e' : Editor} {requests : List Request}
    (h : FilesWork disk draw places p ok keep shot) (hok : ok s) (hpairs : e.Pairs settings (keep s))
    (hrules : e.rules.isOk = true)
    (hrun : (requests.foldlM (Editor.apply (storage disk draw places) book) e).run s = (e', s')) :
    ok s' ∧ shot s' = shot s ∧ e'.rules = e.rules ∧ e'.Pairs settings (keep s') := by
  induction requests generalizing e s with
  | nil =>
    obtain ⟨rfl, rfl⟩ := Prod.mk.inj hrun
    exact ⟨hok, rfl, rfl, hpairs⟩
  | cons r requests ih =>
    rcases hfirst : (e.apply (storage disk draw places) book r).run s with ⟨e₁, s₁⟩
    rw [List.foldlM_cons, run_bind_eq hfirst] at hrun
    obtain ⟨hok₁, hshot₁, hrules₁, hpairs₁⟩ := h.apply hok hpairs hrules hfirst
    obtain ⟨hok', hshot', hrules', hpairs'⟩ := ih hok₁ hpairs₁ (hrules₁ ▸ hrules) hrun
    exact ⟨hok', hshot'.trans hshot₁, hrules'.trans hrules₁, hpairs'⟩

theorem pairs_foldl_refuse {error : RulebookError} {kept : Option String} (requests : List Request)
    (hpairs : e.Pairs settings kept) (hrules : e.rules.isOk = false) :
    (requests.foldl (Editor.refuse error) e).Pairs settings kept := by
  induction requests generalizing e with
  | nil => exact hpairs
  | cons r requests ih => exact ih (e.pairs_refuse hpairs hrules r) hrules

/-- The requests that wait keep the plan and the grid together. -/
theorem FilesWork.applyWaiting {s s' : σ} {e' : Editor}
    (h : FilesWork disk draw places p ok keep shot) (hok : ok s) (hpairs : e.Pairs settings (keep s))
    (hrun : (e.applyWaiting (storage disk draw places)).run s = (e', s')) :
    ok s' ∧ shot s' = shot s ∧ e'.Pairs settings (keep s') := by
  have hidle : ({ e with waiting := [] } : Editor).Pairs settings (keep s) :=
    ⟨hpairs.settings_eq, hpairs.refused, hpairs.governed, hpairs.exists_plan⟩
  rw [Editor.applyWaiting] at hrun
  split at hrun
  · rename_i book hbook
    obtain ⟨hok', hshot', -, hpairs'⟩ := h.foldlM_apply hok hidle (by rw [hbook]; rfl) hrun
    exact ⟨hok', hshot', hpairs'⟩
  · rename_i error herror
    obtain ⟨rfl, rfl⟩ := Prod.mk.inj hrun
    exact ⟨hok, rfl, pairs_foldl_refuse _ hidle (by rw [herror]; rfl)⟩

/-- A snapshot is written with the plan that is kept. -/
theorem FilesWork.saveSnapshot_run {s s' : σ} {grid : Option Grid}
    (h : FilesWork disk draw places p ok keep shot) (hplace : places.snapshot = some p) (hok : ok s)
    (hrun : (Workshop.saveSnapshot disk places grid).run s = ((), s')) :
    ok s' ∧ keep s' = keep s ∧
      shot s' = some ⟨(Snapshot.capture grid ((keep s).getD "")).encode.toArray⟩ := by
  rcases hload : (disk.loadPlan places.plan).run s with ⟨r, s₁⟩
  obtain ⟨rfl, hok₁, hkeep₁, -⟩ := h.load hok hload
  rcases hsave : (disk.saveSnapshot p (Snapshot.capture grid ((keep s).getD ""))).run s₁ with
    ⟨r, s₂⟩
  obtain ⟨-, hok₂, hkeep₂, hshot₂⟩ := h.saveSnapshot hok₁ hsave
  rw [Workshop.saveSnapshot, hplace] at hrun
  dsimp only at hrun
  rw [run_bind_eq hload] at hrun
  dsimp only at hrun
  rw [discard, LawfulFunctor.map_const, Function.comp_apply, run_map_eq hsave] at hrun
  obtain ⟨-, rfl⟩ := Prod.mk.inj hrun
  exact ⟨hok₂, hkeep₂.trans hkeep₁, hshot₂⟩

/-! ### What happens in a workshop -/

/-- What happens in a workshop. -/
inductive Event where
  /-- A request comes in. -/
  | push (r : Request)
  /-- The requests that wait are carried out. -/
  | round
deriving DecidableEq, Repr

/-- Let something happen in a workshop. -/
def happen (disk : Disk (StateM σ)) (draw : StateM σ SeedDraw) (w : Workshop) :
    Event → StateM σ Workshop
  | .push r => pure { w with editor := w.editor.push r }
  | .round => w.round disk draw

/-- Let things happen in order. -/
def runAll (disk : Disk (StateM σ)) (draw : StateM σ SeedDraw) :
    List Event → Workshop → StateM σ Workshop
  | [], w => pure w
  | event :: events, w => do runAll disk draw events (← w.happen disk draw event)

/-- The kept plan and the live grid go together, and the snapshot holds both once a round is
over. -/
structure Shows (settings : Settings) (places : Places) (ok : σ → Prop) (keep : σ → Option String)
    (shot : σ → Option ByteArray) (w : Workshop) (s : σ) : Prop where
  /-- The files are in the given places. -/
  places_eq : w.places = places
  /-- The state is all right. -/
  ok : ok s
  /-- The kept plan and the live grid go together. -/
  pairs : w.editor.Pairs settings (keep s)
  /-- The snapshot holds both. -/
  shot_eq : w.started = true →
    shot s = some ⟨(Snapshot.capture w.editor.track.grid ((keep s).getD "")).encode.toArray⟩

variable {s s' : σ} {w w' : Workshop}

theorem shows_round (h : FilesWork disk draw places p ok keep shot)
    (hplace : places.snapshot = some p) (hw : w.Shows settings places ok keep shot s)
    (hrun : (w.round disk draw).run s = (w', s')) :
    w'.started = true ∧ w'.Shows settings places ok keep shot s' := by
  obtain ⟨rfl, hok, hpairs, hshot⟩ := hw
  rcases hwaiting : (w.editor.applyWaiting (storage disk draw w.places)).run s with ⟨e₁, s₁⟩
  obtain ⟨hok₁, hshot₁, hpairs₁⟩ := h.applyWaiting hok hpairs hwaiting
  rw [round, run_bind_eq hwaiting] at hrun
  split_ifs at hrun with hwrites
  · rcases hsave : (Workshop.saveSnapshot disk w.places e₁.track.grid).run s₁ with ⟨⟨⟩, s₂⟩
    obtain ⟨hok₂, hkeep₂, hshot₂⟩ := h.saveSnapshot_run hplace hok₁ hsave
    rw [run_bind_eq hsave] at hrun
    obtain ⟨rfl, rfl⟩ := Prod.mk.inj hrun
    rw [← hkeep₂] at hpairs₁ hshot₂
    exact ⟨rfl, rfl, hok₂, hpairs₁, fun _ => hshot₂⟩
  · -- Nothing waits and a snapshot has been written before, which still holds the grid.
    obtain ⟨rfl, rfl⟩ := Prod.mk.inj hrun
    simp only [Bool.or_eq_true, Bool.not_eq_true', not_or, Bool.not_eq_false,
      List.isEmpty_iff] at hwrites
    rw [Editor.run_applyWaiting_nil _ hwrites.2] at hwaiting
    obtain ⟨rfl, rfl⟩ := Prod.mk.inj hwaiting
    exact ⟨rfl, rfl, hok, hpairs, fun _ => hshot hwrites.1⟩

theorem shows_happen (h : FilesWork disk draw places p ok keep shot)
    (hplace : places.snapshot = some p) (hw : w.Shows settings places ok keep shot s)
    {event : Event} (hrun : (w.happen disk draw event).run s = (w', s')) :
    (event = .round ∨ w.started = true → w'.started = true) ∧
      w'.Shows settings places ok keep shot s' := by
  cases event with
  | push r =>
    obtain ⟨rfl, rfl⟩ := Prod.mk.inj hrun
    exact ⟨fun hstarted => hstarted.resolve_left Event.noConfusion, hw.places_eq, hw.ok,
      ⟨hw.pairs.settings_eq, hw.pairs.refused, hw.pairs.governed, hw.pairs.exists_plan⟩, hw.shot_eq⟩
  | round =>
    obtain ⟨hstarted, hw'⟩ := shows_round h hplace hw hrun
    exact ⟨fun _ => hstarted, hw'⟩

theorem shows_runAll (h : FilesWork disk draw places p ok keep shot)
    (hplace : places.snapshot = some p) (hw : w.Shows settings places ok keep shot s)
    {events : List Event} (hrun : (runAll disk draw events w).run s = (w', s')) :
    (.round ∈ events ∨ w.started = true → w'.started = true) ∧
      w'.Shows settings places ok keep shot s' := by
  induction events generalizing w s with
  | nil =>
    obtain ⟨rfl, rfl⟩ := Prod.mk.inj hrun
    exact ⟨fun hstarted => hstarted.resolve_left List.not_mem_nil, hw⟩
  | cons event events ih =>
    rcases hfirst : (w.happen disk draw event).run s with ⟨w₁, s₁⟩
    rw [runAll, run_bind_eq hfirst] at hrun
    obtain ⟨hstarted₁, hw₁⟩ := shows_happen h hplace hw hfirst
    obtain ⟨hstarted, hw'⟩ := ih hw₁ hrun
    refine ⟨fun hround => hstarted ?_, hw'⟩
    rw [List.mem_cons] at hround
    tauto

/-- A workshop starts without a kept plan and without a grid. After some requests and rounds, the
snapshot holds the live grid and the text of the kept plan, which is read back as an equal one. From
nothing, the plan is carried out to its end and builds that grid, unless the newest request was kept
and not carried out to its end. Then it is not carried out to its end from nothing either. -/
theorem snapshot_of_runAll (h : FilesWork disk draw w.places p ok keep shot)
    (hplace : w.places.snapshot = some p) (hok : ok s) (hkeep : keep s = none)
    (hgrid : w.editor.track.grid = none) (hhistory : w.editor.history.entries = [])
    (hstarted : w.started = false) {events : List Event} (hround : .round ∈ events)
    (hrun : (runAll disk draw events w).run s = (w', s')) :
    ∃ plan snapshot, snapshot = Snapshot.capture w'.editor.track.grid plan.text ∧
      shot s' = some ⟨snapshot.encode.toArray⟩ ∧
      (∃ back, Plan.read .strict snapshot.plan.toList = .ok (back, []) ∧ (back == plan) = true ∧
        (plan.HasNoNegativeZero → back = plan)) ∧
      ∀ u : Track, u.grid = none →
        let executed := (plan.expand w.editor.settings.params.defaultCols).1
        (u.Completes w.editor.settings.params executed ↔ w'.editor.aborted = false) ∧
        (w'.editor.aborted = false →
          (u.execute w.editor.settings.params executed).2.grid = snapshot.grid ∧
          (u.execute w.editor.settings.params executed).2.digest = snapshot.digest) := by
  have hw : w.Shows w.editor.settings w.places ok keep shot s := by
    refine ⟨rfl, hok, ?_, fun hno => ?_⟩
    · rw [hkeep]
      exact Editor.pairs_of_none rfl hgrid hhistory
    · rw [hstarted] at hno
      cases hno
  obtain ⟨hstarted', hw'⟩ := shows_runAll h hplace hw hrun
  have hshot := hw'.shot_eq (hstarted' (.inl hround))
  obtain ⟨plan, htext, hwritable, hplan⟩ := hw'.pairs.exists_plan
  rw [htext] at hshot
  refine ⟨plan, _, rfl, hshot, ⟨plan.map Op.unsignZeros, Plan.read_text hwritable .strict,
    Plan.unsignZeros_beq hwritable, fun hzero => ?_⟩, fun u hu => ?_⟩
  · exact hzero.map_unsignZeros
  · cases haborted : w'.editor.aborted with
    | true =>
      rw [haborted, if_pos rfl] at hplan
      exact ⟨iff_of_false (hplan u hu) Bool.noConfusion, Bool.noConfusion⟩
    | false =>
      rw [haborted, if_neg Bool.false_ne_true] at hplan
      obtain ⟨hdone, hbuilt⟩ := hplan u hu
      exact ⟨iff_of_true hdone rfl, fun _ => ⟨hbuilt, congrArg digestOf hbuilt⟩⟩

/-- The empty file tree is as good as any to start with. -/
theorem fits_empty (places : Places) (p : Path) : Fits places p {} :=
  ⟨fun _ _ => ⟨none, rfl⟩, none, rfl⟩

/-- A request for a grid, with the files in the empty working folder. -/
theorem snapshot_of_runAll_grid :
    let grid : Template := ⟨.build, [("rows", .fixed (.int 2)), ("cols", .fixed (.int 2))]⟩
    let book : Rulebook := ⟨1, [], [⟨"grid", .commands, "grid", .anyCase "grid".toList, [grid]⟩]⟩
    let w : Workshop := ⟨{ snapshot := some "track.snap" }, { rules := .ok book }, false⟩
    let run := (runAll FileTree.disk (pure ⟨7, 0⟩) [.push ⟨.designer, "grid"⟩, .round] w).run {}
    ∃ (plan : Plan Float) (snapshot : Snapshot),
      snapshot = Snapshot.capture run.1.editor.track.grid plan.text ∧
      run.2.content? "track.snap" = some ⟨snapshot.encode.toArray⟩ ∧
      Track.fresh.Completes {} (plan.expand 3).1 ∧
      (Track.fresh.execute {} (plan.expand 3).1).2.digest = snapshot.digest := by
  intro grid book w run
  have hfiles : FilesWork FileTree.disk (pure ⟨7, 0⟩) w.places "track.snap"
      (Fits w.places "track.snap") (keptText w.places) (FileTree.content? · "track.snap") :=
    filesWork_disk (by decide +kernel) (by decide +kernel) ⟨7, 0⟩
  have haborted : run.1.editor.aborted = false := by decide +kernel
  obtain ⟨plan, snapshot, hsnapshot, hshot, -, hplan⟩ :=
    snapshot_of_runAll hfiles rfl (fits_empty _ _) rfl rfl rfl rfl
      (List.mem_cons_of_mem _ List.mem_cons_self) Prod.mk.eta.symm
  obtain ⟨hdone, hsame⟩ := hplan Track.fresh rfl
  exact ⟨plan, snapshot, hsnapshot, hshot, hdone.mpr haborted, (hsame haborted).2⟩

/-- After a request for a grid and one for a grid without rows, which is kept and comes to an end at
once, the snapshot holds the plan of the second request with the grid of the first one. From nothing
that plan is not carried out to its end, and it does not build that grid. -/
theorem exists_snapshot_not_completes :
    let build (rows : ℤ) : Template :=
      ⟨.build, [("rows", .fixed (.int rows)), ("cols", .fixed (.int 2))]⟩
    let rule (word : String) (t : Template) : Rule :=
      ⟨word, .commands, word, .anyCase word.toList, [t]⟩
    let book : Rulebook := ⟨1, [], [rule "grid" (build 2), rule "line" (build 0)]⟩
    let w : Workshop := ⟨{ snapshot := some "track.snap" }, { rules := .ok book }, false⟩
    let events : List Event :=
      [.push ⟨.designer, "grid"⟩, .round, .push ⟨.designer, "line"⟩, .round]
    let run := (runAll FileTree.disk (pure ⟨7, 0⟩) events w).run {}
    FilesWork FileTree.disk (pure ⟨7, 0⟩) w.places "track.snap" (Fits w.places "track.snap")
        (keptText w.places) (FileTree.content? · "track.snap") ∧
      ∃ (plan : Plan Float) (snapshot : Snapshot),
        run.2.content? "track.snap" = some ⟨snapshot.encode.toArray⟩ ∧
          Plan.read .strict snapshot.plan.toList = .ok (plan, []) ∧
          snapshot.grid = some (Grid.full 2 2) ∧
          ∀ u : Track, u.grid = none → ¬ u.Completes {} (plan.expand 3).1 ∧
            (u.execute {} (plan.expand 3).1).2.grid ≠ snapshot.grid := by
  intro build rule book w events run
  refine ⟨filesWork_disk (by decide +kernel) (by decide +kernel) ⟨7, 0⟩, [.build 0 2],
    Snapshot.capture (some (Grid.full 2 2)) "buildAbs(0,2)\n", by decide +kernel, rfl, rfl,
    fun u hu => ?_⟩
  obtain ⟨grid, stream⟩ := u
  obtain rfl : grid = none := hu
  refine ⟨fun ⟨reports, hreports⟩ => ?_, fun hgrid => ?_⟩
  · cases hreports
  · cases hgrid

end Workshop

end Raceway
