import Mathlib
import Raceway.Proofs.Session.LiveGrid
/-!
# What is kept is read back

Whatever text a session starts with, the operations that are read from it can be written again, and
so can those that a request brings. So the text that a request saves is that of a plan which plan
lines can write. It is read back strictly as an equal plan, and later turns keep it so or put
another such text in its place.

A replay reads that text. It carries out the same plan as the request did, from the seed that the
plan has, and the track ends the same if the grid at the start is the same. Only a zero with a minus
sign comes back as another number.

## Main definitions

* `Raceway.Loads`: the kept text is read back as a plan.
* `Raceway.Plan.HasNoNegativeZero`: the plan comes back as it is.

## Main results

* `Raceway.loads_of_saved`: what a request saves is read back, and later turns keep it so.
* `Raceway.replay_of_edit`: a replay does what the request has done.
-/

namespace Raceway

open Storage

/-! ### Operations that are read -/

/-- An operation that is read from a line can be written again. -/
theorem Op.isWritable_of_ofLine {line : List Char} {op : Op Float} (h : Op.ofLine line = .ok op) :
    op.IsWritable := by
  obtain ⟨call, -, h⟩ := bind_eq_ok h
  split at h
  · rename_i hop
    obtain rfl := Except.ok.inj h
    exact isWritable_of_ofCall hop
  · cases h

namespace Plan

theorem isWritable_of_readEntry {entry : ℕ × List Char} {op : Op Float}
    (h : readEntry entry = .ok op) : op.IsWritable := by
  rw [readEntry] at h
  split at h
  · rename_i hline
    obtain rfl := Except.ok.inj h
    exact Op.isWritable_of_ofLine hline
  · cases h

/-- A plan that is read from a text can be written again. -/
theorem isWritable_of_read {mode : ReadMode} {text : List Char} {plan : Plan Float}
    {skipped : List PlanError} (h : Plan.read mode text = .ok (plan, skipped)) :
    plan.IsWritable := by
  intro op hop
  cases mode with
  | strict =>
    obtain ⟨ops, hops, h⟩ := bind_eq_ok h
    obtain ⟨rfl, -⟩ := Prod.mk.inj (Except.ok.inj h)
    obtain ⟨entry, -, hentry⟩ := exists_of_mem_mapM hops hop
    exact isWritable_of_readEntry hentry
  | lenient =>
    obtain ⟨rfl, -⟩ := Prod.mk.inj (Except.ok.inj h)
    obtain ⟨entry, -, hentry⟩ := List.mem_filterMap.mp hop
    exact isWritable_of_readEntry (ok_of_toOption hentry)

end Plan

theorem isWritable_of_readPlan {mode : ReadMode} {kept : Option String} {plan : Plan Float}
    {skipped : List PlanError} (h : readPlan mode kept = .ok (plan, skipped)) :
    plan.IsWritable := by
  cases kept with
  | none =>
    obtain ⟨rfl, -⟩ := Prod.mk.inj (Except.ok.inj h)
    exact List.forall_mem_nil _
  | some text => exact Plan.isWritable_of_read h

/-- A request leads to a plan that can be written, whatever text is kept. -/
theorem isWritable_of_draft {settings : Settings} {book : Rulebook} {request : String}
    {kept : Option String} {d : Draft} (h : draft settings book request kept = .ok d) :
    d.merge.plan.IsWritable := by
  obtain ⟨⟨previous, skipped⟩, hread, h⟩ := bind_eq_ok h
  obtain rfl := Except.ok.inj h
  exact (isWritable_of_readPlan hread).amend (fun op hop => isWritable_of_mem_understand hop)
    settings.params.isWritable_defaultCreate _

/-! ### What is kept -/

/-- The kept text is that of a plan. Read strictly, it gives an equal plan, and no line is
skipped. -/
structure Loads (kept : Option String) (plan : Plan Float) : Prop where
  /-- The text is that of the plan. -/
  text_eq : kept = some plan.text
  /-- Reading gives an equal plan. -/
  reads : ∃ back, readPlan .strict kept = .ok (back, []) ∧ (back == plan) = true

theorem loads_text {plan : Plan Float} (h : plan.IsWritable) : Loads (some plan.text) plan where
  text_eq := rfl
  reads := ⟨plan.map Op.unsignZeros, Plan.read_text h .strict, Plan.unsignZeros_beq h⟩

/-- The call saves a text, and succeeds. -/
def StorageCall.isSaved : StorageCall → Bool
  | .save _ (.ok ()) => true
  | _ => false

variable {σ : Type} {keep : σ → Option String} {storage : Storage (StateM σ)} {settings : Settings}
  {book : Rulebook} {request : String} {t track : Track} {s s' : σ}
  {result : Except Failure Outcome} {calls : List StorageCall}

theorem Storage.Seeding.any_isSaved {plan : Plan Float} {seeded : Seeded Float}
    {draws : List StorageCall} (h : Seeding storage plan s seeded draws s') :
    draws.any StorageCall.isSaved = false := by
  cases h <;> rfl

namespace EditRun

/-- A request keeps the text that is there, or that of the plan that it has merged and seeded. -/
theorem loads_or_eq (hkeep : storage.KeepsPlan keep)
    (h : EditRun storage settings book request t s result track calls s') :
    (keep s' = keep s ∧ calls.any StorageCall.isSaved = false) ∨
      ∃ d draw, draft settings book request (keep s) = .ok d ∧
        (d.merge.plan.needsSeed = true → .draw draw ∈ calls) ∧
        (∀ o, result = .ok o → o.plan = (d.merge.plan.withSeed draw).plan) ∧
        Loads (keep s') (d.merge.plan.withSeed draw).plan := by
  cases h with
  | notLoaded hload => exact .inl ⟨hkeep.load hload, rfl⟩
  | notRead hload hdraft => exact .inl ⟨hkeep.load hload, rfl⟩
  | notSaved hload hdraft hseed hsave =>
    refine .inl ⟨?_, ?_⟩
    · rw [hkeep.save_error hsave, hseed.plan_eq hkeep, hkeep.load hload]
    · simp [hseed.any_isSaved, StorageCall.isSaved]
  | @saved _ d _ _ _ _ _ _ _ _ _ _ hload hdraft hseed hsave hrecord hperform =>
    obtain rfl := hkeep.load_eq hload
    obtain ⟨draw, rfl, hdraw⟩ := hseed.exists_withSeed
    refine .inr ⟨d, draw, hdraft, fun h => ?_, fun o ho => ?_, ?_⟩
    · simp [hdraw h]
    · obtain rfl := Draft.answer_eq_ok ho
      exact (perform_ok hperform).1
    · rw [hrecord.plan_eq hkeep, hkeep.save_ok hsave]
      exact loads_text ((isWritable_of_draft hdraft).withSeed draw)

end EditRun

/-! ### Turns -/

/-- A replay leaves the kept text as it is. -/
theorem keep_replay {result : Except Failure Performance} (hkeep : storage.KeepsPlan keep)
    (hrun : (replay storage settings t).run s = ((result, track), s')) : keep s' = keep s := by
  rcases hload : storage.load.run s with ⟨kept, s₁⟩
  rw [replay, run_bind_eq hload] at hrun
  have hs : s' = s₁ := by
    split at hrun
    · exact (Prod.mk.inj hrun).2.symm
    · split at hrun <;> exact (Prod.mk.inj hrun).2.symm
  rw [hs, hkeep.load hload]

namespace Turn

variable {params : Params}

/-- A turn keeps a text that is read back, or puts another such text in its place. -/
theorem loads_run {turn : Turn σ} {result : Except Failure Performance}
    (hkeep : turn.storage.KeepsPlan keep) (h : ∃ plan, Loads (keep s) plan)
    (hrun : (turn.run params t).run s = ((result, track), s')) :
    ∃ plan, Loads (keep s') plan := by
  cases turn with
  | edit storage mode book request =>
    obtain ⟨result₁, track₁, calls, s₁, hedit⟩ :=
      exists_editRun storage ⟨params, mode⟩ book request t s
    rw [run, run_bind_eq hedit.run_eq] at hrun
    obtain ⟨-, rfl⟩ := Prod.mk.inj hrun
    obtain ⟨heq, -⟩ | ⟨d, draw, -, -, -, hloads⟩ := hedit.loads_or_eq hkeep
    · rwa [heq]
    · exact ⟨_, hloads⟩
  | replay storage mode => rwa [keep_replay hkeep hrun]

/-- Turns in order keep a text that is read back. -/
theorem loads_runAll {turns : List (Turn σ)} (hkeep : ∀ turn ∈ turns, turn.storage.KeepsPlan keep)
    (h : ∃ plan, Loads (keep s) plan) (hrun : (runAll params turns t).run s = (track, s')) :
    ∃ plan, Loads (keep s') plan := by
  induction turns generalizing t s with
  | nil =>
    obtain ⟨-, rfl⟩ := Prod.mk.inj hrun
    exact h
  | cons turn turns ih =>
    obtain ⟨hturn, hturns⟩ := List.forall_mem_cons.mp hkeep
    rcases hfirst : (turn.run params t).run s with ⟨⟨result, track₁⟩, s₁⟩
    rw [runAll, run_bind_eq hfirst] at hrun
    exact ih hturns (loads_run hturn h hfirst) hrun

end Turn

/-- A request that saves keeps the text of the plan that it has merged and seeded, whatever text was
kept before. Read strictly, that text gives an equal plan, and no line is skipped. Whatever turns
follow, the text that is kept is read back in the same way. -/
theorem loads_of_saved {turns : List (Turn σ)} (hkeep : storage.KeepsPlan keep)
    (hturns : ∀ turn ∈ turns, turn.storage.KeepsPlan keep) {track' : Track} {s'' : σ}
    (hrun : ((edit storage.watched settings book request t).run []).run s =
      (((result, track), calls), s'))
    (hsaved : calls.any StorageCall.isSaved = true)
    (hlater : (Turn.runAll settings.params turns track).run s' = (track', s'')) :
    (∃ d draw, draft settings book request (keep s) = .ok d ∧
      (d.merge.plan.needsSeed = true → .draw draw ∈ calls) ∧
      (∀ o, result = .ok o → o.plan = (d.merge.plan.withSeed draw).plan) ∧
      Loads (keep s') (d.merge.plan.withSeed draw).plan) ∧
    ∃ plan, Loads (keep s'') plan := by
  obtain ⟨result₁, track₁, calls₁, s₁, h⟩ := exists_editRun storage settings book request t s
  obtain ⟨heq, rfl⟩ := Prod.mk.inj (h.run_watched.symm.trans hrun)
  obtain ⟨hanswer, rfl⟩ := Prod.mk.inj heq
  obtain ⟨rfl, rfl⟩ := Prod.mk.inj hanswer
  obtain ⟨-, hnone⟩ | ⟨d, draw, hdraft, hdraw, hplan, hloads⟩ := h.loads_or_eq hkeep
  · rw [hnone] at hsaved
    cases hsaved
  · exact ⟨⟨d, draw, hdraft, hdraw, hplan, hloads⟩,
      Turn.loads_runAll hturns ⟨_, hloads⟩ hlater⟩

/-- A line that is no operation is skipped, and the seed that is drawn has its top bit set. Later on
a request is not saved, and the plan is carried out again. -/
theorem loads_of_saved_skipped :
    let storage := Memory.storage {} ⟨18446744073709551615, 0⟩
    let unsaved := Memory.storage { save := some (.encode "full") } ⟨7, 0⟩
    let mem : Memory :=
      { plan := some "nonsense\nbuildAbs(1,1)\nsBend(0,0,1,gain=-0)\nrandomHoles(50)" }
    let run := ((edit storage.watched {} ⟨1, [], []⟩ "" ⟨none, Random.Stream.ofSeed 3⟩).run []).run
      mem
    let later := (Turn.runAll {}
      [.edit unsaved .strict ⟨1, [], []⟩ "build", .replay storage .strict] run.1.1.2).run run.2
    (∃ d draw, draft {} ⟨1, [], []⟩ "" mem.plan = .ok d ∧
      (d.merge.plan.needsSeed = true → .draw draw ∈ run.1.2) ∧
      (∀ o, run.1.1.1 = .ok o → o.plan = (d.merge.plan.withSeed draw).plan) ∧
      Loads run.2.plan (d.merge.plan.withSeed draw).plan) ∧
    ∃ plan, Loads later.2.plan plan := by
  intro storage unsaved mem run later
  have hsaved : run.1.2.any StorageCall.isSaved = true := by decide +kernel
  have hturns : ∀ turn ∈ [Turn.edit unsaved .strict ⟨1, [], []⟩ "build", .replay storage .strict],
      turn.storage.KeepsPlan Memory.plan := by
    simp [Turn.storage, storage, unsaved, Memory.keepsPlan_storage]
  have hrun : run = (((run.1.1.1, run.1.1.2), run.1.2), run.2) := by simp only [Prod.mk.eta]
  have hlater : later = (later.1, later.2) := by rw [Prod.mk.eta]
  exact loads_of_saved Memory.keepsPlan_storage hturns hrun hsaved hlater

/-! ### Replays -/

/-- The value is a zero with a minus sign. -/
def Value.isNegativeZero : Value Float → Bool
  | number x => decide (x = -0)
  | _ => false

/-- No number in the plan is a zero with a minus sign. -/
def Plan.HasNoNegativeZero (plan : Plan Float) : Prop :=
  ∀ op ∈ plan, ∀ v ∈ op.values, v.isNegativeZero = false

instance (plan : Plan Float) : Decidable plan.HasNoNegativeZero :=
  inferInstanceAs (Decidable (∀ op ∈ plan, ∀ v ∈ op.values, v.isNegativeZero = false))

theorem unpack_negative_zero : (-0 : Float).toModel.unpack = .zero .negative := rfl

theorem unsignZero_of_ne {x : Float} (h : x ≠ -0) : unsignZero x = x := by
  rw [unsignZero]
  split_ifs with hzero
  · obtain ⟨s, hs⟩ := Decimal.eq_zero_of_compare (beq_iff_eq.mp hzero)
    cases s with
    | positive => exact (Decimal.unpack_inj (hs.trans Decimal.unpack_zero.symm)).symm
    | negative => exact absurd (Decimal.unpack_inj (hs.trans unpack_negative_zero.symm)) h
  · rfl

theorem Value.unsignZero_of_isNegativeZero {v : Value Float} (h : v.isNegativeZero = false) :
    v.unsignZero = v := by
  cases v with
  | number x => exact congrArg number (unsignZero_of_ne (of_decide_eq_false h))
  | _ => rfl

theorem Op.unsignZeros_of_isNegativeZero {op : Op Float}
    (h : ∀ v ∈ op.values, v.isNegativeZero = false) : op.unsignZeros = op := by
  have hvalues : op.unsignZeros.values = op.values := by
    rw [unsignZeros, values_mapNumbers]
    exact (List.map_congr_left fun v hv => Value.unsignZero_of_isNegativeZero (h v hv)).trans
      (List.map_id _)
  have hverb : op.unsignZeros.verb = op.verb := verb_mapNumbers ..
  have hback := ofValues?_values op.unsignZeros
  rw [hvalues, hverb, ofValues?_values] at hback
  exact (Option.some.inj hback).symm

theorem Plan.HasNoNegativeZero.map_unsignZeros {plan : Plan Float} (h : plan.HasNoNegativeZero) :
    plan.map Op.unsignZeros = plan := by
  refine (List.map_congr_left fun op hop => ?_).trans (List.map_id plan)
  exact Op.unsignZeros_of_isNegativeZero (h op hop)

/-- Without such zeros a plan comes back as it is, in both modes of reading. -/
theorem Plan.readPlan_text {plan : Plan Float} (hw : plan.IsWritable)
    (hzero : plan.HasNoNegativeZero) (mode : ReadMode) :
    readPlan mode (some plan.text) = .ok (plan, []) := by
  rw [readPlan, Plan.read_text hw, hzero.map_unsignZeros]

/-- Carrying out a plan does the same to two tracks with the same grid, except for what was noticed
before. -/
theorem perform_of_grid_eq {params : Params} {plan : Plan Float} {findings : List Finding}
    {done : Performance} (hperform : perform params plan findings t = (.ok done, track))
    (others : List Finding) {u : Track} (hu : u.grid = t.grid) :
    ∃ again, perform params plan others u = (.ok again, track) ∧ again.plan = done.plan ∧
      again.executed = done.executed ∧ again.reports = done.reports ∧
      again.digest = done.digest := by
  have hdone := congrArg Prod.fst hperform
  have htrack : _ = track := congrArg Prod.snd hperform
  simp only [perform] at hdone htrack ⊢
  obtain ⟨reports, hexecute, rfl⟩ := map_eq_ok hdone
  rw [Track.execute_of_grid_eq hu, hexecute, htrack]
  exact ⟨_, rfl, rfl, rfl, rfl, rfl⟩

/-- A replay of what a request has saved, on a track with the grid that the request started with and
with any random stream, does what the request has done: it carries out the same plan with the same
reports, and the track ends the same. The mode in which the plan is read makes no difference. -/
theorem replay_of_edit {other : Storage (StateM σ)} {o : Outcome} {kept : Option String} {s'' : σ}
    (hkeep : storage.KeepsPlan keep) (hother : other.KeepsPlan keep)
    (hrun : (edit storage settings book request t).run s = ((.ok o, track), s'))
    (hzero : o.plan.HasNoNegativeZero) (hload : other.load.run s' = (.ok kept, s''))
    (mode : ReadMode) {u : Track} (hu : u.grid = t.grid) :
    ∃ done, (replay other ⟨settings.params, mode⟩ u).run s' = ((.ok done, track), s'') ∧
      done.plan = o.plan ∧ done.executed = o.executed ∧ done.reports = o.reports ∧
      done.digest = o.digest := by
  obtain ⟨result₁, track₁, calls, s₁, h⟩ := exists_editRun storage settings book request t s
  obtain ⟨heq, rfl⟩ := Prod.mk.inj (h.run_eq.symm.trans hrun)
  obtain ⟨rfl, rfl⟩ := Prod.mk.inj heq
  generalize hresult : (.ok o : Except Failure Outcome) = result at h
  cases h with
  | notLoaded hload => cases hresult
  | notRead hload hdraft => cases hresult
  | notSaved hload hdraft hseed hsave => cases hresult
  | saved hload' hdraft hseed hsave hrecord hperform =>
    obtain rfl := Draft.answer_eq_ok hresult.symm
    obtain ⟨draw, rfl, -⟩ := hseed.exists_withSeed
    have hplan := (perform_ok hperform).1
    rw [hplan] at hzero
    have hread := Plan.readPlan_text ((isWritable_of_draft hdraft).withSeed draw) hzero mode
    have hkept : kept = _ :=
      (hother.load_eq hload).trans ((hrecord.plan_eq hkeep).trans (hkeep.save_ok hsave))
    obtain ⟨done, hagain, hsame⟩ := perform_of_grid_eq hperform ([].map .skippedLine) hu
    refine ⟨done, ?_, hsame⟩
    rw [replay, run_bind_eq hload, hkept]
    simp only [hread, hagain]
    rfl

/-- A request for holes in a default grid, and a replay with another storage and another stream. -/
theorem replay_of_edit_holes :
    let params : Params := { defaultRows := 2, defaultCols := 2 }
    let holes : Template := ⟨.randomHoles, [("pct", .fixed (.int 50))]⟩
    let book : Rulebook :=
      ⟨1, [], [⟨"holes", .commands, "holes", .anyCase "holes".toList, [holes]⟩]⟩
    let track (seed : UInt64) : Track := ⟨none, Random.Stream.ofSeed seed⟩
    ∃ o last mem done,
      (edit (Memory.storage {} ⟨7, 0⟩) ⟨params, .lenient⟩ book "build holes" (track 1)).run {} =
          ((.ok o, last), mem) ∧
        o.reports.length = 3 ∧
        (replay (Memory.storage {} ⟨9, 0⟩) ⟨params, .strict⟩ (track 2)).run mem =
          ((.ok done, last), mem) ∧
        done.plan = o.plan ∧ done.executed = o.executed ∧ done.reports = o.reports ∧
        done.digest = o.digest := by
  intro params holes book track
  let run :=
    (edit (Memory.storage {} ⟨7, 0⟩) ⟨params, .lenient⟩ book "build holes" (track 1)).run {}
  have hlength : run.1.1.toOption.map (·.reports.length) = some 3 := by decide +kernel
  have hall : run.1.1.toOption.all (decide ·.plan.HasNoNegativeZero) = true := by decide +kernel
  have hother : (Memory.storage {} ⟨9, 0⟩).KeepsPlan Memory.plan := Memory.keepsPlan_storage
  have hload (mem : Memory) :
      (Memory.storage {} ⟨9, 0⟩).load.run mem = (.ok mem.plan, mem) := rfl
  have hgrid : (track 2).grid = (track 1).grid := rfl
  rcases hrun : run with ⟨⟨e | o, last⟩, mem⟩ <;> rw [hrun] at hlength hall
  · cases hlength
  · obtain ⟨done, hagain, hsame⟩ := replay_of_edit Memory.keepsPlan_storage hother hrun
      (of_decide_eq_true hall) (hload mem) .strict hgrid
    exact ⟨o, last, mem, done, hrun, Option.some.inj hlength, hagain, hsame⟩

end Raceway
