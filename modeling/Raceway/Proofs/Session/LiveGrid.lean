import Mathlib
import Raceway.Proofs.Op.Accepted
import Raceway.Proofs.Plan.BuildsFirst
import Raceway.Proofs.Session.Edit
/-!
# The live grid and the kept plan

In a session, requests and replays follow each other, each of them with a storage of its own that
keeps the same plan. Whatever fails on the way, the text that is kept is always that of a plan which
governs the live grid. So the grid after a turn that succeeds is the one that the plan it has
carried out builds from nothing, and the live track never drifts away from what is kept.

## Main definitions

* `Raceway.Governed`: the kept text is that of a plan which governs the grid.
* `Raceway.Turn` and `Raceway.Turn.runAll`: a turn of a session, and turns in order.

## Main results

* `Raceway.governed_edit` and `Raceway.governed_replay`: a turn keeps the grid governed.
* `Raceway.Turn.execute_of_runAll`: the live grid is the one that is built from nothing.
-/

namespace Raceway

open Storage

/-! ### Plans that can be written -/

theorem isFinite_unsignZero {x : Float} (h : x.isFinite = true) :
    (unsignZero x).isFinite = true := by
  rw [unsignZero]
  split_ifs
  · rfl
  · exact h

theorem Value.isWritable_unsignZero {v : Value Float} (h : v.IsWritable) :
    v.unsignZero.IsWritable := by
  cases v with
  | number x => exact isFinite_unsignZero h
  | _ => exact h

theorem Op.isWritable_unsignZeros {op : Op Float} (h : op.IsWritable) :
    op.unsignZeros.IsWritable := by
  rw [IsWritable, unsignZeros, values_mapNumbers, List.forall_mem_map]
  exact fun v hv => Value.isWritable_unsignZero (h v hv)

/-- The top bit of a drawn seed is dropped, so that a signed word holds it. -/
theorem lineSeed_le (seed : UInt64) : ((lineSeed seed).toNat : ℤ) ≤ Decimal.maxInt64 := by
  have h : (lineSeed seed).toNat ≤ 9223372036854775807 := by
    rw [lineSeed, UInt64.toNat_and]
    exact Nat.and_le_right
  rw [Decimal.maxInt64]
  omega

theorem Params.isWritable_defaultCreate (params : Params) :
    (params.defaultCreate : Op Float).IsWritable := by
  simp [Params.defaultCreate, Op.IsWritable, Op.values, Value.IsWritable]

namespace Plan.IsWritable

variable {plan : Plan Float}

theorem map_unsignZeros (h : plan.IsWritable) : Plan.IsWritable (plan.map Op.unsignZeros) :=
  List.forall_mem_map.mpr fun op hop => Op.isWritable_unsignZeros (h op hop)

theorem amend {fresh : List (Op Float)} {default : Op Float} (h : plan.IsWritable)
    (hfresh : ∀ op ∈ fresh, op.IsWritable) (hdefault : default.IsWritable) (creates : Bool) :
    (plan.amend fresh creates default).plan.IsWritable := by
  intro op hop
  rcases mem_amend hop with hop | hop | rfl
  · exact h op (mem_keptFor.mp hop).1
  · exact hfresh op (mem_additions.mp hop).1
  · exact hdefault

theorem withSeed (h : plan.IsWritable) (draw : SeedDraw) :
    (plan.withSeed draw).plan.IsWritable := by
  rw [Plan.withSeed]
  split_ifs
  · refine List.forall_mem_cons.mpr ⟨?_, h⟩
    simpa [Op.IsWritable, Op.values, Value.IsWritable] using lineSeed_le draw.seed
  · exact h

end Plan.IsWritable

/-! ### What is kept governs the grid -/

/-- The kept text is that of a plan which governs the grid. -/
def Governed (kept : Option String) (grid : Option Grid) : Prop :=
  ∃ plan : Plan Float, (∀ mode, readPlan mode kept = .ok (plan, [])) ∧ plan.IsWritable ∧
    plan.Governs grid

theorem governed_none : Governed none none :=
  ⟨[], fun _ => rfl, List.forall_mem_nil _, .inr ⟨rfl, rfl⟩⟩

theorem governed_text {plan : Plan Float} {grid : Option Grid} (hw : plan.IsWritable)
    (h : plan.Governs grid) : Governed (some plan.text) grid :=
  ⟨plan.map Op.unsignZeros, Plan.read_text hw, hw.map_unsignZeros, h.map_unsignZeros⟩

/-- A request leads to a plan that governs the grid. -/
theorem Governed.draft {kept : Option String} {grid : Option Grid} (h : Governed kept grid)
    (settings : Settings) (book : Rulebook) (request : String) :
    ∃ d, draft settings book request kept = .ok d ∧ d.merge.plan.IsWritable ∧
      d.merge.plan.Governs grid := by
  obtain ⟨plan, hread, hw, hgoverns⟩ := h
  rw [Raceway.draft, hread, ok_bind]
  refine ⟨_, rfl, ?_, ?_⟩
  · exact hw.amend (fun op hop => isWritable_of_mem_understand hop)
      settings.params.isWritable_defaultCreate _
  · exact hgoverns.amend creates_of_any_isCreate rfl

/-- The plan that was carried out builds the grid from nothing. -/
def Performance.Builds (params : Params) (done : Performance) (grid : Option Grid) : Prop :=
  ∀ u : Track, u.grid = none →
    u.Completes params done.executed ∧ (u.execute params done.executed).2.grid = grid

/-- Carrying out a plan that governs the grid. -/
theorem Plan.Governs.perform {plan : Plan Float} {params : Params} {findings : List Finding}
    {t track : Track} {result : Except ExecutionError Performance} (h : plan.Governs t.grid)
    (hperform : perform params plan findings t = (result, track)) :
    plan.Governs track.grid ∧
      ∀ done, result = .ok done → done.Builds params track.grid := by
  refine ⟨?_, ?_⟩
  · obtain rfl := congrArg Prod.snd hperform
    exact h.execute_expand params params.defaultCols
  · rintro done rfl u hu
    obtain ⟨-, hexecuted, hdone, rfl⟩ := perform_ok hperform
    have heq := (h.expand params.defaultCols).execute_eq (hexecuted ▸ hdone) hu
    rw [← hexecuted] at heq
    rw [Track.Completes, heq]
    exact ⟨hdone, rfl⟩

/-! ### Turns -/

variable {σ : Type} {keep : σ → Option String} {t track : Track} {s s' : σ}

section Outcomes

variable {storage : Storage (StateM σ)} {settings : Settings}

/-- A request keeps the grid governed, whether it succeeds or not. -/
theorem governed_edit {book : Rulebook} {request : String} {result : Except Failure Outcome}
    (hkeep : storage.KeepsPlan keep) (h : Governed (keep s) t.grid)
    (hrun : (edit storage settings book request t).run s = ((result, track), s')) :
    Governed (keep s') track.grid ∧
      ∀ o, result = .ok o → o.toPerformance.Builds settings.params track.grid := by
  obtain ⟨result₁, track₁, calls, s₁, hedit⟩ := exists_editRun storage settings book request t s
  obtain ⟨heq, rfl⟩ := Prod.mk.inj (hedit.run_eq.symm.trans hrun)
  obtain ⟨rfl, rfl⟩ := Prod.mk.inj heq
  cases hedit with
  | notLoaded hload => exact ⟨hkeep.load hload ▸ h, fun o ho => nomatch ho⟩
  | notRead hload hdraft => exact ⟨hkeep.load hload ▸ h, fun o ho => nomatch ho⟩
  | notSaved hload hdraft hseed hsave =>
    rw [hkeep.save_error hsave, hseed.plan_eq hkeep, hkeep.load hload]
    exact ⟨h, fun o ho => nomatch ho⟩
  | @saved _ d _ _ _ _ _ _ _ _ _ _ hload hdraft hseed hsave hrecord hperform =>
    obtain rfl := hkeep.load_eq hload
    obtain ⟨d', hdraft', hw, hgoverns⟩ := h.draft settings book request
    obtain rfl := Except.ok.inj (hdraft.symm.trans hdraft')
    obtain ⟨draw, rfl, -⟩ := hseed.exists_withSeed
    obtain ⟨htrack, hbuilds⟩ := (hgoverns.withSeed draw).perform hperform
    rw [hrecord.plan_eq hkeep, hkeep.save_ok hsave]
    exact ⟨governed_text (hw.withSeed draw) htrack, fun o ho => hbuilds _ (Draft.answer_eq_ok ho)⟩

/-- A replay keeps the grid governed, whether it succeeds or not. -/
theorem governed_replay {result : Except Failure Performance} (hkeep : storage.KeepsPlan keep)
    (h : Governed (keep s) t.grid)
    (hrun : (replay storage settings t).run s = ((result, track), s')) :
    Governed (keep s') track.grid ∧
      ∀ done, result = .ok done → done.Builds settings.params track.grid := by
  rcases hload : storage.load.run s with ⟨e | kept, s₁⟩
  · rw [replay, run_bind_eq hload] at hrun
    obtain ⟨heq, rfl⟩ := Prod.mk.inj hrun
    obtain ⟨rfl, rfl⟩ := Prod.mk.inj heq
    exact ⟨hkeep.load hload ▸ h, fun done hdone => nomatch hdone⟩
  · obtain rfl := hkeep.load_eq hload
    obtain ⟨plan, hread, hw, hgoverns⟩ := h
    rw [replay, run_bind_eq hload] at hrun
    simp only [hread] at hrun
    rcases hperform : perform settings.params plan ([].map .skippedLine) t with ⟨done, track₁⟩
    rw [hperform] at hrun
    obtain ⟨heq, rfl⟩ := Prod.mk.inj hrun
    obtain ⟨rfl, rfl⟩ := Prod.mk.inj heq
    obtain ⟨htrack, hbuilds⟩ := hgoverns.perform hperform
    refine ⟨⟨plan, hkeep.load hload ▸ hread, hw, htrack⟩, fun done' hdone => ?_⟩
    cases done with
    | error e => cases hdone
    | ok done =>
      obtain rfl := Except.ok.inj hdone
      exact hbuilds done rfl

end Outcomes

/-- A turn of a session: a request or a replay, with the storage that it uses and with the way in
which it reads the kept plan. -/
inductive Turn (σ : Type) where
  /-- Carry out a request, by a rulebook. -/
  | edit (storage : Storage (StateM σ)) (mode : ReadMode) (book : Rulebook) (request : String)
  /-- Carry out the kept plan. -/
  | replay (storage : Storage (StateM σ)) (mode : ReadMode)

namespace Turn

/-- The storage of a turn. -/
def storage : Turn σ → Storage (StateM σ)
  | edit storage .. | replay storage _ => storage

/-- Take a turn. -/
def run (params : Params) (turn : Turn σ) (t : Track) :
    StateM σ (Except Failure Performance × Track) :=
  match turn with
  | edit storage mode book request => do
    let (result, t) ← Raceway.edit storage ⟨params, mode⟩ book request t
    return (result.map Outcome.toPerformance, t)
  | replay storage mode => Raceway.replay storage ⟨params, mode⟩ t

/-- Take turns in order, whether they succeed or not. -/
def runAll (params : Params) : List (Turn σ) → Track → StateM σ Track
  | [], t => pure t
  | turn :: turns, t => do
    let (_, t) ← turn.run params t
    runAll params turns t

variable {params : Params}

/-- A turn keeps the grid governed. -/
theorem governed_run {turn : Turn σ} {result : Except Failure Performance}
    (hkeep : turn.storage.KeepsPlan keep) (h : Governed (keep s) t.grid)
    (hrun : (turn.run params t).run s = ((result, track), s')) :
    Governed (keep s') track.grid ∧
      ∀ done, result = .ok done → done.Builds params track.grid := by
  cases turn with
  | edit storage mode book request =>
    rcases hedit : (Raceway.edit storage ⟨params, mode⟩ book request t).run s with
      ⟨⟨result₁, track₁⟩, s₁⟩
    rw [run, run_bind_eq hedit] at hrun
    obtain ⟨heq, rfl⟩ := Prod.mk.inj hrun
    obtain ⟨rfl, rfl⟩ := Prod.mk.inj heq
    obtain ⟨hgoverned, hbuilds⟩ := governed_edit hkeep h hedit
    refine ⟨hgoverned, fun done hdone => ?_⟩
    obtain ⟨o, rfl, rfl⟩ := map_eq_ok hdone
    exact hbuilds o rfl
  | replay storage mode => exact governed_replay hkeep h hrun

/-- Turns in order keep the grid governed. -/
theorem governed_runAll {turns : List (Turn σ)}
    (hkeep : ∀ turn ∈ turns, turn.storage.KeepsPlan keep) (h : Governed (keep s) t.grid)
    (hrun : (runAll params turns t).run s = (track, s')) : Governed (keep s') track.grid := by
  induction turns generalizing t s with
  | nil =>
    obtain ⟨rfl, rfl⟩ := Prod.mk.inj hrun
    exact h
  | cons turn turns ih =>
    obtain ⟨hturn, hturns⟩ := List.forall_mem_cons.mp hkeep
    rcases hfirst : (turn.run params t).run s with ⟨⟨result, track₁⟩, s₁⟩
    rw [runAll, run_bind_eq hfirst] at hrun
    exact ih hturns (governed_run hturn h hfirst).1 hrun

/-- A session starts without a grid and with nothing kept. After any requests and replays, each with
a storage that may fail, a turn that succeeds leaves the grid which the plan that it has carried out
builds from nothing, on any random stream. -/
theorem execute_of_runAll {turns : List (Turn σ)} {turn : Turn σ}
    (hkeep : ∀ x ∈ turn :: turns, x.storage.KeepsPlan keep) {s₁ s₂ : σ} {t₁ t₂ : Track}
    {done : Performance} (hs : keep s = none) (ht : t.grid = none)
    (hturns : (runAll params turns t).run s = (t₁, s₁))
    (hturn : (turn.run params t₁).run s₁ = ((.ok done, t₂), s₂)) (stream : Random.Stream) :
    (⟨none, stream⟩ : Track).Completes params done.executed ∧
      ((⟨none, stream⟩ : Track).execute params done.executed).2.grid = t₂.grid := by
  obtain ⟨hlast, hkeep⟩ := List.forall_mem_cons.mp hkeep
  have hstart : Governed (keep s) t.grid := by
    rw [hs, ht]
    exact governed_none
  have hgoverned := governed_runAll hkeep hstart hturns
  exact (governed_run hlast hgoverned hturn).2 done rfl _ rfl

/-- A request that is not saved, one for holes without a grid, and one for a new grid with holes
whose seed is not recorded, and a replay after them. -/
theorem execute_of_runAll_holes :
    let params : Params := { defaultRows := 2, defaultCols := 2 }
    let holes : Template := ⟨.randomHoles, [("pct", .fixed (.int 50))]⟩
    let rule : Rule := ⟨"holes", .commands, "holes", .anyCase "holes".toList, [holes]⟩
    let book : Rulebook := ⟨1, [], [rule]⟩
    let unsaved := Memory.storage { save := some (.encode "full") } ⟨7, 0⟩
    let unrecorded := Memory.storage { record := some (.encode "full") } ⟨8, 0⟩
    let turns : List (Turn Memory) :=
      [.edit unsaved .lenient book "build", .edit (Memory.storage {} ⟨7, 0⟩) .strict book "holes",
        .edit unrecorded .strict book "build holes"]
    let last : Turn Memory := .replay (Memory.storage {} ⟨9, 0⟩) .lenient
    ∃ t₁ s₁ t₂ s₂ done,
      (runAll params turns ⟨none, Random.Stream.ofSeed 1⟩).run {} = (t₁, s₁) ∧
        (last.run params t₁).run s₁ = ((.ok done, t₂), s₂) ∧ t₂.grid.isSome = true ∧
          ∀ stream, (⟨none, stream⟩ : Track).Completes params done.executed ∧
            ((⟨none, stream⟩ : Track).execute params done.executed).2.grid = t₂.grid := by
  intro params holes rule book unsaved unrecorded turns last
  have hkeep : ∀ turn ∈ last :: turns, turn.storage.KeepsPlan Memory.plan := by
    simp [last, turns, unsaved, unrecorded, storage, Memory.keepsPlan_storage]
  have hs : Memory.plan ({} : Memory) = none := rfl
  have ht : (⟨none, Random.Stream.ofSeed 1⟩ : Track).grid = none := rfl
  let after (r : Track × Memory) := (last.run params r.1).run r.2
  have hok : (after ((runAll params turns ⟨none, Random.Stream.ofSeed 1⟩).run {})).1.1.isOk =
      true := by decide +kernel
  have hsome : (after ((runAll params turns ⟨none, Random.Stream.ofSeed 1⟩).run
      {})).1.2.grid.isSome = true := by decide +kernel
  rcases hturns : (runAll params turns ⟨none, Random.Stream.ofSeed 1⟩).run {} with ⟨t₁, s₁⟩
  rw [hturns] at hok hsome
  rcases hlast : (last.run params t₁).run s₁ with ⟨⟨e | done, t₂⟩, s₂⟩
  · simp only [after, hlast] at hok
    cases hok
  · simp only [after, hlast] at hsome
    exact ⟨t₁, s₁, t₂, s₂, done, rfl, hlast, hsome, execute_of_runAll hkeep hs ht hturns hlast⟩

end Turn

end Raceway
