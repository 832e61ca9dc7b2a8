import Mathlib
import Raceway.Proofs.Plan.FirstSeed
import Raceway.Proofs.Session.Reload
/-!
# The seeds of a session

A plan that is saved says which random numbers it stands for: it sets a seed if it draws any, and
the stream of its execution starts from the first one. That is the first seed of the request, or
else of the plan that the request was appended to, or else one that was drawn for it. A seed is only
drawn where there is no other, and is offered to the seed log after it has been saved with the plan.
From then on the plan has a seed, so that no further one is drawn until a request creates a new grid.

## Main definitions

* `Raceway.EditRun.SeedRules`: what a request that saves a plan does with seeds.
* `Raceway.DrawsNoMore`: no request draws a seed, as long as none creates a grid.

## Main results

* `Raceway.EditRun.seedRules`: a request that saves a plan follows the rules.
* `Raceway.Turn.keepsSeed_runAll`: turns that create no grid keep a plan with a seed.
* `Raceway.seed_discipline`: both together.
-/

namespace Raceway

open Storage Raceway.Random

/-- The call draws a seed. -/
def StorageCall.isDraw : StorageCall → Bool
  | draw _ => true
  | _ => false

variable {σ : Type} {keep : σ → Option String} {storage : Storage (StateM σ)} {settings : Settings}
  {book : Rulebook} {request : String} {t track : Track} {s s' : σ}
  {result : Except Failure Outcome} {calls : List StorageCall}

/-! ### The plan of a request -/

/-- The plan that a request leads to is a merge into the plan that was read. -/
theorem exists_amend_of_draft {kept : Option String} {d : Draft}
    (h : draft settings book request kept = .ok d) :
    ∃ previous skipped, readPlan settings.mode kept = .ok (previous, skipped) ∧
      d.merge = previous.amend (understandText book request).ops
        (understandText book request).creates settings.params.defaultCreate := by
  obtain ⟨⟨previous, skipped⟩, hread, h⟩ := bind_eq_ok h
  obtain rfl := Except.ok.inj h
  exact ⟨previous, skipped, hread, rfl⟩

/-- Carrying out a plan, the stream starts from the seed of that plan. -/
theorem perform_seeded {params : Params} {plan : Plan Float} {findings : List Finding}
    {result : Except ExecutionError Performance}
    (h : perform params plan findings t = (result, track)) :
    track = (Track.executeFrom params 0 false (plan.expand params.defaultCols).1
      ⟨t.grid, Stream.ofSeed plan.seed⟩).2 := by
  obtain rfl := congrArg Prod.snd h
  rw [perform_track, Track.execute, Track.reseed, Plan.seed_eq, Plan.firstSeed?_expand,
    Plan.seed_eq]

/-- An execution draws nothing for a plan without random operations, also where it does not
complete. -/
theorem Track.stream_executeFrom {params : Params} {index : ℕ} {seeded : Bool} {ops : Plan Float}
    (hops : ops.hasRandom = false) (t : Track) :
    (executeFrom params index seeded ops t).2.stream = t.stream := by
  obtain ⟨done, hdone, hlast⟩ := exists_executeFrom_eq params index seeded ops t
  rw [hlast]
  refine stream_actAll (List.any_eq_false.mpr fun op hop => ?_) t
  exact List.any_eq_false.mp hops op (hdone.subset hop)

/-! ### A request that saves a plan -/

/-- Either no seed is drawn for a plan, or one is drawn that becomes its first seed. -/
theorem Storage.Seeding.entry_cases {plan : Plan Float} {seeded : Seeded Float}
    {draws : List StorageCall} (h : Seeding storage plan s seeded draws s') :
    (seeded.entry = .none ∧ draws = []) ∨
      ∃ e draw, seeded.entry = some e ∧ draws = [.draw draw] ∧ e.seed = lineSeed draw.seed ∧
        seeded.plan.firstSeed? = some e.seed := by
  cases h with
  | none h => exact .inl ⟨rfl, rfl⟩
  | drawn h hdraw =>
    refine .inr ?_
    rw [Plan.withSeed, if_pos h]
    exact ⟨_, _, rfl, rfl, rfl, rfl⟩

theorem Storage.Recording.entry_cases {entry : Option SeedEntry}
    {unrecorded : Option (SeedEntry × StoreError)} {records : List StorageCall}
    (h : Recording storage s entry unrecorded records s') :
    (entry = none ∧ records = []) ∨
      ∃ e answer, entry = some e ∧ records = [.record e answer] := by
  cases h with
  | nothing => exact .inl ⟨rfl, rfl⟩
  | recorded h => exact .inr ⟨_, _, rfl, rfl⟩
  | failed h => exact .inr ⟨_, _, rfl, rfl⟩

namespace EditRun

/-- What a request that saves a plan does with seeds. The entry is the record of the seed that was
drawn, if one was. -/
structure SeedRules (keep : σ → Option String) (settings : Settings) (book : Rulebook)
    (request : String) (t track : Track) (s s' : σ) (calls : List StorageCall)
    (saved : Plan Float) (entry : Option SeedEntry) : Prop where
  /-- Plan lines can write the plan. -/
  writable : saved.IsWritable
  /-- The plan is kept. -/
  kept : keep s' = some saved.text
  /-- It sets a seed if it draws random numbers. -/
  seeded : saved.hasRandom = true → saved.hasSeed = true
  /-- Expanding it changes nothing about that. -/
  expanded (width : UInt32) : (saved.expand width).1.hasRandom = saved.hasRandom ∧
    (saved.expand width).1.hasSeed = saved.hasSeed ∧ (saved.expand width).1.seed = saved.seed
  /-- It is carried out with a stream that starts from its seed. -/
  performed : track = (Track.executeFrom settings.params 0 false
    (saved.expand settings.params.defaultCols).1 ⟨t.grid, Stream.ofSeed saved.seed⟩).2
  /-- That seed is written in the plan, or nothing is drawn from the stream. -/
  written : .seed saved.seed ∈ saved ∨
    saved.hasRandom = false ∧ track.stream = Stream.ofSeed saved.seed
  /-- The first seed of the plan is that of the request, or else that of the plan which the request
  is appended to, or else the one that was drawn. -/
  source : ∃ previous skipped, readPlan settings.mode (keep s) = .ok (previous, skipped) ∧
    saved.firstSeed? = (Plan.firstSeed? (understandText book request).ops).or
      ((if (understandText book request).creates then none else previous.firstSeed?).or
        (entry.map (·.seed)))
  /-- No seed is drawn and none recorded, or the one that is drawn is recorded once it has been
  saved. It has no top bit, and is the first seed of the plan. -/
  recorded : (entry = none ∧ ∃ kept, calls = [.load (.ok kept), .save saved.text (.ok ())]) ∨
    ∃ e kept draw answer, entry = some e ∧
      calls = [.load (.ok kept), .draw draw, .save saved.text (.ok ()), .record e answer] ∧
      e.seed = lineSeed draw.seed ∧ (e.seed.toNat : ℤ) ≤ Decimal.maxInt64 ∧
      saved.firstSeed? = some e.seed

theorem seedRules (hkeep : storage.KeepsPlan keep)
    (h : EditRun storage settings book request t s result track calls s')
    (hsaved : calls.any StorageCall.isSaved = true) :
    ∃ saved entry, SeedRules keep settings book request t track s s' calls saved entry := by
  cases h with
  | notLoaded hload => cases hsaved
  | notRead hload hdraft => cases hsaved
  | notSaved hload hdraft hseed hsave =>
    simp [hseed.any_isSaved, StorageCall.isSaved] at hsaved
  | @saved kept d seeded _ _ _ _ _ _ _ _ _ hload hdraft hseed hsave hrecord hperform =>
    obtain rfl := hkeep.load_eq hload
    obtain ⟨previous, skipped, hread, hmerge⟩ := exists_amend_of_draft hdraft
    have hdrawn := hseed.entry_cases
    have hrecorded := hrecord.entry_cases
    obtain ⟨draw, rfl, -⟩ := hseed.exists_withSeed
    have hfirst : d.merge.plan.firstSeed? = _ := hmerge ▸ Plan.firstSeed?_amend _ _ rfl previous
    have htrack := perform_seeded hperform
    have hhasSeed := Plan.hasSeed_withSeed draw d.merge.plan
    refine ⟨(d.merge.plan.withSeed draw).plan, (d.merge.plan.withSeed draw).entry,
      (isWritable_of_draft hdraft).withSeed draw, ?_, hhasSeed, fun width => ?_, htrack, ?_,
      ⟨previous, skipped, hread, ?_⟩, ?_⟩
    · rw [hrecord.plan_eq hkeep, hkeep.save_ok hsave]
    · rw [Plan.hasSeed_eq, Plan.hasSeed_eq, Plan.seed_eq, Plan.firstSeed?_expand]
      exact ⟨Plan.hasRandom_expand _ width, rfl, Plan.seed_eq _⟩
    · cases hrandom : (d.merge.plan.withSeed draw).plan.hasRandom with
      | true => exact .inl (Plan.seed_mem (hhasSeed hrandom))
      | false =>
        refine .inr ⟨rfl, ?_⟩
        rw [htrack]
        exact Track.stream_executeFrom (by rw [Plan.hasRandom_expand, hrandom]) _
    · rw [Plan.firstSeed?_withSeed, hfirst, Option.or_assoc]
    · obtain ⟨hentry, rfl⟩ | ⟨e, drawn, hentry, rfl, hlow, hfirst⟩ := hdrawn <;>
        obtain ⟨hentry', rfl⟩ | ⟨e', answer, hentry', rfl⟩ := hrecorded
      · exact .inl ⟨hentry, keep s, rfl⟩
      · cases hentry.symm.trans hentry'
      · cases hentry.symm.trans hentry'
      · obtain rfl := Option.some.inj (hentry.symm.trans hentry')
        exact .inr ⟨e, keep s, drawn, answer, hentry, rfl, hlow, hlow ▸ lineSeed_le drawn.seed,
          hfirst⟩

end EditRun

/-! ### Turns that create no grid -/

/-- The kept text is that of a plan that sets a seed. -/
def KeepsSeed (kept : Option String) : Prop :=
  ∃ plan : Plan Float, kept = some plan.text ∧ plan.IsWritable ∧ plan.hasSeed = true

/-- A request that creates no grid leads to a plan with a seed from a kept plan with a seed. -/
theorem KeepsSeed.hasSeed_of_draft {kept : Option String} (h : KeepsSeed kept)
    (hcreates : (understandText book request).creates = false) {d : Draft}
    (hdraft : draft settings book request kept = .ok d) : d.merge.plan.hasSeed = true := by
  obtain ⟨plan, rfl, hw, hseed⟩ := h
  obtain ⟨previous, skipped, hread, hmerge⟩ := exists_amend_of_draft hdraft
  rw [readPlan, Plan.read_text hw] at hread
  obtain ⟨rfl, -⟩ := Prod.mk.inj (Except.ok.inj hread)
  rw [Plan.hasSeed_eq] at hseed ⊢
  rw [hmerge, Plan.firstSeed?_amend _ _ rfl, hcreates, if_neg Bool.false_ne_true,
    show Op.unsignZeros = Op.mapNumbers unsignZero from rfl, Plan.firstSeed?_map_mapNumbers,
    Option.isSome_or, hseed, Bool.or_true]

/-- A request that creates no grid draws and records no seed if the kept plan has one, and keeps a
plan with a seed, whether it succeeds or not. -/
theorem EditRun.keepsSeed (hkeep : storage.KeepsPlan keep) (hseed : KeepsSeed (keep s))
    (hcreates : (understandText book request).creates = false)
    (h : EditRun storage settings book request t s result track calls s') :
    KeepsSeed (keep s') ∧ calls.any StorageCall.isDraw = false ∧
      calls.any StorageCall.isRecord = false := by
  have hneeds {d : Draft} (hdraft : draft settings book request (keep s) = .ok d) :
      d.merge.plan.hasSeed = true ∧ d.merge.plan.needsSeed = false := by
    have hhas := hseed.hasSeed_of_draft hcreates hdraft
    exact ⟨hhas, by rw [Plan.needsSeed, hhas, Bool.not_true, Bool.and_false]⟩
  cases h with
  | notLoaded hload => exact ⟨hkeep.load hload ▸ hseed, rfl, rfl⟩
  | notRead hload hdraft => exact ⟨hkeep.load hload ▸ hseed, rfl, rfl⟩
  | notSaved hload hdraft hseeding hsave =>
    obtain rfl := hkeep.load_eq hload
    cases hseeding with
    | none h => exact ⟨by rwa [hkeep.save_error hsave, hkeep.load hload], rfl, rfl⟩
    | drawn h hdraw => exact Bool.noConfusion ((hneeds hdraft).2.symm.trans h)
  | saved hload hdraft hseeding hsave hrecord hperform =>
    obtain rfl := hkeep.load_eq hload
    cases hseeding with
    | none h =>
      cases hrecord
      refine ⟨⟨_, hkeep.save_ok hsave, ?_, (hneeds hdraft).1⟩, rfl, rfl⟩
      exact isWritable_of_draft hdraft
    | drawn h hdraw => exact Bool.noConfusion ((hneeds hdraft).2.symm.trans h)

namespace Turn

/-- The turn is a request to create a grid. -/
def creates : Turn σ → Bool
  | edit _ _ book request => (understandText book request).creates
  | replay .. => false

variable {params : Params}

theorem keepsSeed_run {turn : Turn σ} {result : Except Failure Performance}
    (hkeep : turn.storage.KeepsPlan keep) (hcreates : turn.creates = false)
    (hseed : KeepsSeed (keep s)) (hrun : (turn.run params t).run s = ((result, track), s')) :
    KeepsSeed (keep s') := by
  cases turn with
  | edit storage mode book request =>
    obtain ⟨result₁, track₁, calls, s₁, hedit⟩ :=
      exists_editRun storage ⟨params, mode⟩ book request t s
    rw [run, run_bind_eq hedit.run_eq] at hrun
    obtain ⟨-, rfl⟩ := Prod.mk.inj hrun
    exact (hedit.keepsSeed hkeep hseed hcreates).1
  | replay storage mode => rwa [keep_replay hkeep hrun]

/-- Turns that create no grid keep a plan with a seed. -/
theorem keepsSeed_runAll {turns : List (Turn σ)}
    (hturns : ∀ turn ∈ turns, turn.storage.KeepsPlan keep ∧ turn.creates = false)
    (hseed : KeepsSeed (keep s)) (hrun : (runAll params turns t).run s = (track, s')) :
    KeepsSeed (keep s') := by
  induction turns generalizing t s with
  | nil =>
    obtain ⟨-, rfl⟩ := Prod.mk.inj hrun
    exact hseed
  | cons turn turns ih =>
    obtain ⟨⟨hkeep, hcreates⟩, hturns⟩ := List.forall_mem_cons.mp hturns
    rcases hfirst : (turn.run params t).run s with ⟨⟨result, track₁⟩, s₁⟩
    rw [runAll, run_bind_eq hfirst] at hrun
    exact ih hturns (keepsSeed_run hkeep hcreates hseed hfirst) hrun

end Turn

/-- However requests that create no grid and replays follow each other, whether they succeed or not,
and each of them with a storage of its own that keeps the same plan, no request draws or records a
seed. -/
def DrawsNoMore (keep : σ → Option String) (s : σ) : Prop :=
  ∀ (params : Params) (turns : List (Turn σ)) (storage : Storage (StateM σ)) (settings : Settings)
    (book : Rulebook) (request : String) (t : Track),
    (∀ turn ∈ turns, turn.storage.KeepsPlan keep ∧ turn.creates = false) →
    storage.KeepsPlan keep → (understandText book request).creates = false →
    let before := (Turn.runAll params turns t).run s
    let calls := (((edit storage.watched settings book request before.1).run []).run before.2).1.2
    calls.any StorageCall.isDraw = false ∧ calls.any StorageCall.isRecord = false

/-- A request that saves a plan follows the rules of seeds. Once it has saved a plan with a seed, no
seed is drawn until a request creates a grid. -/
theorem seed_discipline (hkeep : storage.KeepsPlan keep)
    (hrun : ((edit storage.watched settings book request t).run []).run s =
      (((result, track), calls), s'))
    (hsaved : calls.any StorageCall.isSaved = true) :
    ∃ saved entry, EditRun.SeedRules keep settings book request t track s s' calls saved entry ∧
      (saved.hasSeed = true → DrawsNoMore keep s') := by
  obtain ⟨result₁, track₁, calls₁, s₁, h⟩ := exists_editRun storage settings book request t s
  obtain ⟨heq, rfl⟩ := Prod.mk.inj (h.run_watched.symm.trans hrun)
  obtain ⟨hanswer, rfl⟩ := Prod.mk.inj heq
  obtain ⟨rfl, rfl⟩ := Prod.mk.inj hanswer
  obtain ⟨saved, entry, hrules⟩ := h.seedRules hkeep hsaved
  refine ⟨saved, entry, hrules, fun hseed => ?_⟩
  intro params turns storage' settings' book' request' u hturns hkeep' hcreates before calls'
  have hbefore : KeepsSeed (keep before.2) :=
    Turn.keepsSeed_runAll hturns ⟨saved, hrules.kept, hrules.writable, hseed⟩ rfl
  obtain ⟨result₂, track₂, calls₂, s₂, h'⟩ :=
    exists_editRun storage' settings' book' request' before.1 before.2
  have hcalls : calls' = calls₂ := congrArg (fun r => r.1.2) h'.run_watched
  rw [hcalls]
  exact (h'.keepsSeed hkeep' hbefore hcreates).2

/-- A seed with its top bit set is drawn for holes in a default grid, and cannot be recorded. -/
theorem seed_discipline_holes :
    let settings : Settings := ⟨{ defaultRows := 2, defaultCols := 2 }, .lenient⟩
    let holes : Template := ⟨.randomHoles, [("pct", .fixed (.int 50))]⟩
    let book : Rulebook :=
      ⟨1, [], [⟨"holes", .commands, "holes", .anyCase "holes".toList, [holes]⟩]⟩
    let storage := Memory.storage { record := some (.encode "full") } ⟨18446744073709551615, 0⟩
    let t : Track := ⟨none, Stream.ofSeed 1⟩
    let run := ((edit storage.watched settings book "build holes" t).run []).run {}
    ∃ saved entry, EditRun.SeedRules Memory.plan settings book "build holes" t run.1.1.2 {} run.2
      run.1.2 saved (some entry) ∧ DrawsNoMore Memory.plan run.2 := by
  intro settings holes book storage t run
  have hsaved : run.1.2.any StorageCall.isSaved = true := by decide +kernel
  have hlength : run.1.2.length = 4 := by decide +kernel
  have hrun : run = (((run.1.1.1, run.1.1.2), run.1.2), run.2) := by simp only [Prod.mk.eta]
  obtain ⟨saved, entry, hrules, hlater⟩ := seed_discipline Memory.keepsPlan_storage hrun hsaved
  rcases hrules.recorded with ⟨-, kept, hcalls⟩ | ⟨e, kept, draw, answer, rfl, -, -, -, hfirst⟩
  · rw [hcalls] at hlength
    cases hlength
  · exact ⟨saved, e, hrules, hlater (by rw [Plan.hasSeed_eq, hfirst]; rfl)⟩

end Raceway
