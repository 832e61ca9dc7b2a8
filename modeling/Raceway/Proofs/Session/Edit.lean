import Mathlib
import Raceway.Proofs.Execution
import Raceway.Proofs.Storage.Calls
import Raceway.Session.Edit
/-!
# What a request does to the storage and the track

A request can go in four ways: the plan is not brought back, it cannot be read, the new plan is not
saved, or it is saved and carried out. Only the last one touches the track, the kept plan or the
seed log. A seed that cannot be recorded is noticed, and makes no other difference.

## Main definitions

* `Raceway.EditRun`: the ways in which a request can go.
* `Raceway.EditRun.Written`: what is written by a request whose plan is carried out.
* `Raceway.Outcome.unnoticed`: an outcome without what was noticed.

## Main results

* `Raceway.EditRun.run_eq`: these are the ways in which a request goes.
* `Raceway.edit_all_or_nothing`: what a request changes, by its result.
-/

namespace Raceway

open Storage

variable {σ : Type} {storage : Storage (StateM σ)} {settings : Settings} {book : Rulebook}
  {request : String} {s s' : σ} {t track : Track} {result : Except Failure Outcome}
  {calls : List StorageCall}

/-! ### Carrying out a plan -/

/-- What is carried out is the expanded plan. -/
theorem perform_track (params : Params) (plan : Plan Float) (findings : List Finding) (t : Track) :
    (perform params plan findings t).2 =
      (t.execute params (plan.expand params.defaultCols).1).2 :=
  rfl

theorem perform_ok {params : Params} {plan : Plan Float} {findings : List Finding} {t track : Track}
    {done : Performance} (h : perform params plan findings t = (.ok done, track)) :
    done.plan = plan ∧ done.executed = (plan.expand params.defaultCols).1 ∧
      t.Completes params done.executed ∧ track = (t.execute params done.executed).2 := by
  have hdone := congrArg Prod.fst h
  have htrack : _ = track := congrArg Prod.snd h
  rw [perform_track] at htrack
  simp only [perform] at hdone
  obtain ⟨reports, hexecute, rfl⟩ := map_eq_ok hdone
  exact ⟨rfl, rfl, ⟨reports, hexecute⟩, htrack.symm⟩

/-! ### The ways of a request -/

/-- The answer to a request once its plan is carried out. -/
def Draft.answer (d : Draft) (result : Except ExecutionError Performance) :
    Except Failure Outcome :=
  (result.map (⟨·, d.merge.summary⟩)).mapError .execution

theorem Draft.answer_eq_error {d : Draft} {done : Except ExecutionError Performance} {e : Failure}
    (h : d.answer done = .error e) : ∃ fault, e = .execution fault := by
  cases done with
  | error fault => exact ⟨fault, (Except.error.inj h).symm⟩
  | ok done => cases h

theorem Draft.answer_eq_ok {d : Draft} {done : Except ExecutionError Performance} {o : Outcome}
    (h : d.answer done = .ok o) : done = .ok o.toPerformance := by
  cases done with
  | error fault => cases h
  | ok done => rw [← Except.ok.inj h]

/-- The ways in which a request can go, with its result, the track, the calls of the storage and the
state of the storage at the end. -/
inductive EditRun (storage : Storage (StateM σ)) (settings : Settings) (book : Rulebook)
    (request : String) (t : Track) (s : σ) :
    Except Failure Outcome → Track → List StorageCall → σ → Prop
  /-- The plan is not brought back. -/
  | notLoaded {e : StoreError} {s₁ : σ} (hload : storage.load.run s = (.error e, s₁)) :
      EditRun storage settings book request t s (.error (.store e)) t [.load (.error e)] s₁
  /-- The plan cannot be read. -/
  | notRead {kept : Option String} {e : PlanError} {s₁ : σ}
      (hload : storage.load.run s = (.ok kept, s₁))
      (hdraft : draft settings book request kept = .error e) :
      EditRun storage settings book request t s (.error (.plan e)) t [.load (.ok kept)] s₁
  /-- The new plan is not saved. -/
  | notSaved {kept : Option String} {d : Draft} {seeded : Seeded Float} {e : StoreError}
      {draws : List StorageCall} {s₁ s₂ s₃ : σ}
      (hload : storage.load.run s = (.ok kept, s₁))
      (hdraft : draft settings book request kept = .ok d)
      (hseed : Seeding storage d.merge.plan s₁ seeded draws s₂)
      (hsave : (storage.save seeded.plan.text).run s₂ = (.error e, s₃)) :
      EditRun storage settings book request t s (.error (.store e)) t
        ([.load (.ok kept)] ++ draws ++ [.save seeded.plan.text (.error e)]) s₃
  /-- The new plan is saved and carried out. -/
  | saved {kept : Option String} {d : Draft} {seeded : Seeded Float}
      {unrecorded : Option (SeedEntry × StoreError)} {draws records : List StorageCall}
      {s₁ s₂ s₃ s₄ : σ} {result : Except ExecutionError Performance} {track : Track}
      (hload : storage.load.run s = (.ok kept, s₁))
      (hdraft : draft settings book request kept = .ok d)
      (hseed : Seeding storage d.merge.plan s₁ seeded draws s₂)
      (hsave : (storage.save seeded.plan.text).run s₂ = (.ok (), s₃))
      (hrecord : Recording storage s₃ seeded.entry unrecorded records s₄)
      (hperform : perform settings.params seeded.plan
        (d.findings ++ seedFindings seeded.entry unrecorded) t = (result, track)) :
      EditRun storage settings book request t s (d.answer result) track
        ([.load (.ok kept)] ++ draws ++ [.save seeded.plan.text (.ok ())] ++ records) s₄

/-- A request goes in one of these ways. -/
theorem exists_editRun (storage : Storage (StateM σ)) (settings : Settings) (book : Rulebook)
    (request : String) (t : Track) (s : σ) :
    ∃ result track calls s', EditRun storage settings book request t s result track calls s' := by
  rcases hload : storage.load.run s with ⟨e | kept, s₁⟩
  · exact ⟨_, _, _, _, .notLoaded hload⟩
  rcases hdraft : draft settings book request kept with e | d
  · exact ⟨_, _, _, _, .notRead hload hdraft⟩
  obtain ⟨seeded, draws, s₂, hseed⟩ := exists_seeding storage d.merge.plan s₁
  rcases hsave : (storage.save seeded.plan.text).run s₂ with ⟨e | u, s₃⟩
  · exact ⟨_, _, _, _, .notSaved hload hdraft hseed hsave⟩
  obtain ⟨unrecorded, records, s₄, hrecord⟩ := exists_recording storage seeded.entry s₃
  exact ⟨_, _, _, _, .saved hload hdraft hseed hsave hrecord rfl⟩

namespace EditRun

/-- A request gives the result of the way in which it goes. -/
theorem run_eq (h : EditRun storage settings book request t s result track calls s') :
    (edit storage settings book request t).run s = ((result, track), s') := by
  cases h with
  | notLoaded hload =>
    rw [edit, run_bind_eq hload]
    rfl
  | notRead hload hdraft =>
    rw [edit, run_bind_eq hload]
    simp only [hdraft]
    rfl
  | notSaved hload hdraft hseed hsave =>
    rw [edit, run_bind_eq hload]
    simp only [hdraft]
    rw [finish, run_bind_eq hseed.run_eq, run_bind_eq hsave]
    rfl
  | saved hload hdraft hseed hsave hrecord hperform =>
    rw [edit, run_bind_eq hload]
    simp only [hdraft]
    rw [finish, run_bind_eq hseed.run_eq, run_bind_eq hsave, run_bind_eq hrecord.run_eq]
    simp only [hperform]
    split <;> rename_i heq <;> obtain ⟨rfl, rfl⟩ := Prod.mk.inj heq <;> rfl

/-- A request that notes its calls goes the same way. -/
theorem run_watched (h : EditRun storage settings book request t s result track calls s') :
    ((edit storage.watched settings book request t).run []).run s =
      (((result, track), calls), s') := by
  cases h with
  | notLoaded hload =>
    rw [edit, run_run_bind_eq (run_watched_load [] hload)]
    rfl
  | notRead hload hdraft =>
    rw [edit, run_run_bind_eq (run_watched_load [] hload)]
    simp only [hdraft]
    rfl
  | notSaved hload hdraft hseed hsave =>
    rw [edit, run_run_bind_eq (run_watched_load [] hload)]
    simp only [hdraft]
    rw [finish, run_run_bind_eq (hseed.run_watched _), run_run_bind_eq (run_watched_save _ hsave)]
    rfl
  | saved hload hdraft hseed hsave hrecord hperform =>
    rw [edit, run_run_bind_eq (run_watched_load [] hload)]
    simp only [hdraft]
    rw [finish, run_run_bind_eq (hseed.run_watched _), run_run_bind_eq (run_watched_save _ hsave),
      run_run_bind_eq (hrecord.run_watched _)]
    simp only [hperform]
    split <;> rename_i heq <;> obtain ⟨rfl, rfl⟩ := Prod.mk.inj heq <;> rfl

/-! ### The storage and the track afterwards -/

/-- At most one save is called. -/
theorem length_filter_isSave
    (h : EditRun storage settings book request t s result track calls s') :
    (calls.filter StorageCall.isSave).length ≤ 1 := by
  cases h with
  | notLoaded hload => simp [StorageCall.isSave]
  | notRead hload hdraft => simp [StorageCall.isSave]
  | notSaved hload hdraft hseed hsave =>
    simp [List.filter_cons, StorageCall.isSave, hseed.filter_isSave]
  | saved hload hdraft hseed hsave hrecord hperform =>
    simp [List.filter_cons, StorageCall.isSave, hseed.filter_isSave, hrecord.filter_isSave]

variable {keep : σ → Option String} {log : σ → List SeedEntry}

/-- What is written by a request whose plan is carried out. -/
structure Written (keep : σ → Option String) (log : σ → List SeedEntry) (seeded : Seeded Float)
    (calls : List StorageCall) (s s' : σ) : Prop where
  /-- The plan is saved, once. -/
  saved : calls.filter StorageCall.isSave = [.save seeded.plan.text (.ok ())]
  /-- It is the plan that is kept. -/
  kept : keep s' = some seeded.plan.text
  /-- The entry of a drawn seed is recorded, once, and is new in the seed log if that succeeds.
  Nothing else is new there. -/
  logged : (seeded.entry = none ∧ calls.filter StorageCall.isRecord = [] ∧ log s' = log s) ∨
    ∃ entry r, seeded.entry = some entry ∧
      calls.filter StorageCall.isRecord = [.record entry r] ∧
      log s' = log s ++ if r.isOk then [entry] else []

/-- A request that fails before its plan is carried out leaves everything as it is. -/
theorem unchanged (hkeep : storage.KeepsPlan keep) (hlog : storage.KeepsLog log)
    (h : EditRun storage settings book request t s result track calls s') {e : Failure}
    (he : result = .error e) (hne : ∀ fault, e ≠ .execution fault) :
    track = t ∧ keep s' = keep s ∧ log s' = log s := by
  cases h with
  | notLoaded hload => exact ⟨rfl, hkeep.load hload, hlog.load hload⟩
  | notRead hload hdraft => exact ⟨rfl, hkeep.load hload, hlog.load hload⟩
  | notSaved hload hdraft hseed hsave =>
    refine ⟨rfl, ?_, ?_⟩
    · rw [hkeep.save_error hsave, hseed.plan_eq hkeep, hkeep.load hload]
    · rw [hlog.save hsave, hseed.log_eq hlog, hlog.load hload]
  | saved hload hdraft hseed hsave hrecord hperform =>
    obtain ⟨fault, rfl⟩ := Draft.answer_eq_error he
    exact absurd rfl (hne fault)

/-- A request fails before its plan is carried out where an action of the storage fails, or where
the kept plan cannot be read. -/
theorem cause (hkeep : storage.KeepsPlan keep)
    (h : EditRun storage settings book request t s result track calls s') {e : Failure}
    (he : result = .error e) (hne : ∀ fault, e ≠ .execution fault) :
    (∃ error, e = .store error ∧
      (.load (.error error) ∈ calls ∨ ∃ text, .save text (.error error) ∈ calls)) ∨
    ∃ error, e = .plan error ∧ draft settings book request (keep s) = .error error := by
  cases h with
  | notLoaded hload =>
    obtain rfl := Except.error.inj he
    exact .inl ⟨_, rfl, .inl (List.mem_singleton_self _)⟩
  | notRead hload hdraft =>
    obtain rfl := Except.error.inj he
    obtain rfl := hkeep.load_eq hload
    exact .inr ⟨_, rfl, hdraft⟩
  | notSaved hload hdraft hseed hsave =>
    obtain rfl := Except.error.inj he
    exact .inl ⟨_, rfl, .inr ⟨_, List.mem_append_right _ (List.mem_singleton_self _)⟩⟩
  | saved hload hdraft hseed hsave hrecord hperform =>
    obtain ⟨fault, rfl⟩ := Draft.answer_eq_error he
    exact absurd rfl (hne fault)

/-- A request that fails before its plan is carried out does not call for a change of the seed log,
and has no save that succeeds. -/
theorem not_written (h : EditRun storage settings book request t s result track calls s')
    {e : Failure} (he : result = .error e) (hne : ∀ fault, e ≠ .execution fault) :
    calls.filter StorageCall.isRecord = [] ∧
      ∀ call ∈ calls.filter StorageCall.isSave, ∃ text e, call = .save text (.error e) := by
  cases h with
  | notLoaded hload => simp [StorageCall.isRecord, StorageCall.isSave]
  | notRead hload hdraft => simp [StorageCall.isRecord, StorageCall.isSave]
  | notSaved hload hdraft hseed hsave =>
    simp [List.filter_cons, StorageCall.isRecord, StorageCall.isSave, hseed.filter_isRecord,
      hseed.filter_isSave]
  | saved hload hdraft hseed hsave hrecord hperform =>
    obtain ⟨fault, rfl⟩ := Draft.answer_eq_error he
    exact absurd rfl (hne fault)

/-- A request whose plan is carried out has saved that plan and recorded its seed. -/
theorem written (hkeep : storage.KeepsPlan keep) (hlog : storage.KeepsLog log)
    (h : EditRun storage settings book request t s result track calls s')
    (hresult : ∀ e, result = .error e → ∃ fault, e = .execution fault) :
    ∃ d draw seeded, draft settings book request (keep s) = .ok d ∧
      seeded = d.merge.plan.withSeed draw ∧
      (d.merge.plan.needsSeed = true → .draw draw ∈ calls) ∧
      (∀ o, result = .ok o → o.plan = seeded.plan) ∧ Written keep log seeded calls s s' := by
  cases h with
  | notLoaded hload =>
    obtain ⟨fault, hfault⟩ := hresult _ rfl
    cases hfault
  | notRead hload hdraft =>
    obtain ⟨fault, hfault⟩ := hresult _ rfl
    cases hfault
  | notSaved hload hdraft hseed hsave =>
    obtain ⟨fault, hfault⟩ := hresult _ rfl
    cases hfault
  | @saved _ d seeded _ _ _ _ _ _ _ _ _ hload hdraft hseed hsave hrecord hperform =>
    obtain rfl := hkeep.load_eq hload
    obtain ⟨draw, hseeded, hdraw⟩ := hseed.exists_withSeed
    refine ⟨d, draw, seeded, hdraft, hseeded, fun h => ?_, fun o ho => ?_, ?_, ?_, ?_⟩
    · simp [hdraw h]
    · obtain rfl := Draft.answer_eq_ok ho
      exact (perform_ok hperform).1
    · simp [List.filter_cons, StorageCall.isSave, hseed.filter_isSave, hrecord.filter_isSave]
    · rw [hrecord.plan_eq hkeep, hkeep.save_ok hsave]
    · have hbefore := (hlog.save hsave).trans ((hseed.log_eq hlog).trans (hlog.load hload))
      rw [← hbefore]
      simpa [List.filter_cons, StorageCall.isRecord, hseed.filter_isRecord] using
        hrecord.log_cases hlog

end EditRun

/-! ### Seeds that cannot be recorded -/

/-- An outcome without what was noticed. -/
def Outcome.unnoticed (o : Outcome) : Outcome :=
  { o with findings := [] }

/-- What is noticed before a plan is carried out makes no difference to what it does. -/
theorem unnoticed_answer_perform (d : Draft) (params : Params) (plan : Plan Float)
    (findings findings' : List Finding) (t : Track) :
    (d.answer (perform params plan findings t).1).map Outcome.unnoticed =
      (d.answer (perform params plan findings' t).1).map Outcome.unnoticed := by
  simp only [perform, Draft.answer]
  cases (t.execute params (plan.expand params.defaultCols).1).1 <;> rfl

theorem Storage.Seeding.with_record {plan : Plan Float} {seeded : Seeded Float}
    {draws : List StorageCall} (h : Seeding storage plan s seeded draws s')
    (record : SeedEntry → StateM σ (Except StoreError Unit)) :
    Seeding { storage with record := record } plan s seeded draws s' := by
  cases h with
  | none h => exact .none h
  | drawn h hdraw => exact .drawn h hdraw

/-- Another way of recording seeds makes no difference, except for what is noticed and kept. -/
theorem EditRun.with_record (h : EditRun storage settings book request t s result track calls s')
    (record : SeedEntry → StateM σ (Except StoreError Unit)) :
    ∃ result' calls' s'', EditRun { storage with record := record } settings book request t s
      result' track calls' s'' ∧
        result'.map Outcome.unnoticed = result.map Outcome.unnoticed := by
  cases h with
  | notLoaded hload => exact ⟨_, _, _, .notLoaded hload, rfl⟩
  | notRead hload hdraft => exact ⟨_, _, _, .notRead hload hdraft, rfl⟩
  | notSaved hload hdraft hseed hsave =>
    exact ⟨_, _, _, .notSaved hload hdraft (hseed.with_record record) hsave, rfl⟩
  | @saved _ d seeded unrecorded _ _ _ _ s₃ _ done track hload hdraft hseed hsave hrecord
      hperform =>
    obtain ⟨unrecorded', records', s₄, hrecord'⟩ :=
      exists_recording { storage with record := record } seeded.entry s₃
    obtain ⟨rfl, rfl⟩ := Prod.mk.inj hperform
    exact ⟨_, _, _, .saved hload hdraft (hseed.with_record record) hsave hrecord' rfl,
      unnoticed_answer_perform ..⟩

/-- A request calls at most one save. If it fails before its plan is carried out, then the plan was
not brought back, not read or not saved; the track, the kept plan and the seed log are as before,
and nothing was saved or recorded. Otherwise the merged plan with its seed is saved, and the entry
of a seed that was drawn is recorded, once each; the seed log has that entry if recording it
succeeds, and no other new one. Recording seeds in another way, which may fail, changes neither the
result of the request, except for what is noticed, nor the track. -/
theorem edit_all_or_nothing {keep : σ → Option String} {log : σ → List SeedEntry}
    (hkeep : storage.KeepsPlan keep) (hlog : storage.KeepsLog log)
    (hrun : (edit storage settings book request t).run s = ((result, track), s')) :
    ∃ calls, ((edit storage.watched settings book request t).run []).run s =
        (((result, track), calls), s') ∧
      (calls.filter StorageCall.isSave).length ≤ 1 ∧
      (∀ e, result = .error e → (∀ fault, e ≠ .execution fault) →
        ((∃ error, e = .store error ∧
            (.load (.error error) ∈ calls ∨ ∃ text, .save text (.error error) ∈ calls)) ∨
          ∃ error, e = .plan error ∧ draft settings book request (keep s) = .error error) ∧
        (track = t ∧ keep s' = keep s ∧ log s' = log s) ∧
        calls.filter StorageCall.isRecord = [] ∧
        ∀ call ∈ calls.filter StorageCall.isSave, ∃ text e, call = .save text (.error e)) ∧
      ((∀ e, result = .error e → ∃ fault, e = .execution fault) →
        ∃ d draw seeded, draft settings book request (keep s) = .ok d ∧
          seeded = d.merge.plan.withSeed draw ∧
          (d.merge.plan.needsSeed = true → .draw draw ∈ calls) ∧
          (∀ o, result = .ok o → o.plan = seeded.plan) ∧
          EditRun.Written keep log seeded calls s s') ∧
      ∀ record, ∃ result' s'',
        (edit { storage with record := record } settings book request t).run s =
            ((result', track), s'') ∧
          result'.map Outcome.unnoticed = result.map Outcome.unnoticed := by
  obtain ⟨result₁, track₁, calls, s₁, h⟩ := exists_editRun storage settings book request t s
  obtain ⟨heq, rfl⟩ := Prod.mk.inj (h.run_eq.symm.trans hrun)
  obtain ⟨rfl, rfl⟩ := Prod.mk.inj heq
  refine ⟨calls, h.run_watched, h.length_filter_isSave, fun e he hne => ?_, h.written hkeep hlog,
    fun record => ?_⟩
  · exact ⟨h.cause hkeep he hne, h.unchanged hkeep hlog he hne, h.not_written he hne⟩
  · obtain ⟨result', calls', s'', h', hsame⟩ := h.with_record record
    exact ⟨result', s'', h'.run_eq, hsame⟩

/-- The kept plan needs a seed, which cannot be recorded. -/
theorem edit_all_or_nothing_unrecorded :
    let storage := Memory.storage { record := some (.encode "full") } ⟨7, 0⟩
    let mem : Memory := { plan := some "buildAbs(1,1)\nrandomHoles(50)\n" }
    let run := (edit storage {} ⟨1, [], []⟩ "" ⟨none, Random.Stream.ofSeed 3⟩).run mem
    run.1.1.isOk = true ∧
      run.2 = { plan := some "seed(7)\nbuildAbs(1,1)\nrandomHoles(50)\n", saves := 1 } ∧
      ∃ d draw seeded, draft {} ⟨1, [], []⟩ "" mem.plan = .ok d ∧
        seeded = d.merge.plan.withSeed draw ∧ (∀ o, run.1.1 = .ok o → o.plan = seeded.plan) ∧
        run.2.plan = some seeded.plan.text := by
  intro storage mem run
  have hok : run.1.1.isOk = true := by decide +kernel
  have hrun : (edit storage {} ⟨1, [], []⟩ "" ⟨none, Random.Stream.ofSeed 3⟩).run mem =
      ((run.1.1, run.1.2), run.2) := rfl
  obtain ⟨calls, -, -, -, hwritten, -⟩ :=
    edit_all_or_nothing Memory.keepsPlan_storage Memory.keepsLog_storage hrun
  obtain ⟨d, draw, seeded, hdraft, hseeded, -, hplan, hwritten⟩ := hwritten fun e he => by
    rw [he] at hok
    cases hok
  exact ⟨hok, by decide +kernel, d, draw, seeded, hdraft, hseeded, hplan, hwritten.kept⟩

end Raceway
