import Mathlib
import Raceway.Storage.Memory
/-!
# The calls of a storage

What a program does to a storage is the list of the actions that it calls, with their answers. They
can be noted down while the program runs, which changes nothing else. What the storage keeps is
looked at from outside, as a plan and a seed log: an action that fails leaves both as they are, and
one that succeeds does to them what it says.

## Main definitions

* `Raceway.StorageCall`: a call of an action, with its answer.
* `Raceway.Storage.watched`: a storage that notes its calls.
* `Raceway.Storage.KeepsPlan` and `Raceway.Storage.KeepsLog`: a storage keeps the plan that is
  saved, and the seeds that are recorded.
* `Raceway.Storage.Seeding` and `Raceway.Storage.Recording`: what drawing a seed for a plan and
  recording it can do.

## Main results

* `Raceway.Storage.Seeding.run_eq` and `Raceway.Storage.Recording.run_eq`: this is what they do.
* `Raceway.Memory.keepsPlan_storage` and `Raceway.Memory.keepsLog_storage`: a storage in memory
  keeps both.
-/

namespace Raceway

/-- A call of an action of a storage, with its answer. -/
inductive StorageCall where
  /-- The plan was brought back. -/
  | load (answer : Except StoreError (Option String))
  /-- A text was put in the place of the plan. -/
  | save (text : String) (answer : Except StoreError Unit)
  /-- An entry was added to the seed log. -/
  | record (entry : SeedEntry) (answer : Except StoreError Unit)
  /-- A seed was drawn. -/
  | draw (answer : SeedDraw)

/-- The call is a save. -/
def StorageCall.isSave : StorageCall → Bool
  | save .. => true
  | _ => false

/-- The call adds to the seed log. -/
def StorageCall.isRecord : StorageCall → Bool
  | record .. => true
  | _ => false

namespace Storage

section Watching

variable {m : Type → Type} [Monad m]

/-- Carry out an action and note the call. -/
def noting {α : Type} (call : α → StorageCall) (act : m α) : StateT (List StorageCall) m α := do
  let answer ← act
  modify (· ++ [call answer])
  return answer

/-- A storage that notes its calls, the first one first. -/
def watched (storage : Storage m) : Storage (StateT (List StorageCall) m) where
  load := noting .load storage.load
  save text := noting (.save text) (storage.save text)
  record entry := noting (.record entry) (storage.record entry)
  draw := noting .draw storage.draw

end Watching

variable {σ : Type} {storage : Storage (StateM σ)}

/-! ### Running actions one after the other -/

section Run

variable {α β : Type} {act : StateM σ α} {s s' : σ} {a : α} (h : act.run s = (a, s'))

include h

theorem run_bind_eq (f : α → StateM σ β) : (act >>= f).run s = (f a).run s' := by
  rw [StateT.run_bind, h]
  rfl

theorem run_map_eq (f : α → β) : (f <$> act).run s = (f a, s') := by
  rw [StateT.run_map, h]
  rfl

theorem run_noting (call : α → StorageCall) (calls : List StorageCall) :
    ((noting call act).run calls).run s = ((a, calls ++ [call a]), s') := by
  simp only [noting, bind_pure_comp, StateT.run_bind, StateT.run_monadLift, monadLift_self,
    StateT.run_map, StateT.run_modify, map_pure, Functor.map_map, h]
  rfl

end Run

section RunWatched

variable {s s' : σ} (calls : List StorageCall)

theorem run_watched_load {r : Except StoreError (Option String)}
    (h : storage.load.run s = (r, s')) :
    (storage.watched.load.run calls).run s = ((r, calls ++ [.load r]), s') :=
  run_noting h .load calls

theorem run_watched_save {text : String} {r : Except StoreError Unit}
    (h : (storage.save text).run s = (r, s')) :
    ((storage.watched.save text).run calls).run s = ((r, calls ++ [.save text r]), s') :=
  run_noting h (.save text) calls

theorem run_watched_record {entry : SeedEntry} {r : Except StoreError Unit}
    (h : (storage.record entry).run s = (r, s')) :
    ((storage.watched.record entry).run calls).run s = ((r, calls ++ [.record entry r]), s') :=
  run_noting h (.record entry) calls

theorem run_watched_draw {r : SeedDraw} (h : storage.draw.run s = (r, s')) :
    (storage.watched.draw.run calls).run s = ((r, calls ++ [.draw r]), s') :=
  run_noting h .draw calls

end RunWatched

theorem run_run_bind_eq {α β : Type} {act : StateT (List StorageCall) (StateM σ) α}
    {s s' : σ} {calls calls' : List StorageCall} {a : α}
    (h : (act.run calls).run s = ((a, calls'), s'))
    (f : α → StateT (List StorageCall) (StateM σ) β) :
    ((act >>= f).run calls).run s = ((f a).run calls').run s' := by
  rw [StateT.run_bind, run_bind_eq h]

/-! ### What is kept -/

/-- The storage keeps the plan that is saved, as seen by a view of its states: what is brought back
is the plan, and only a save that succeeds changes it. -/
structure KeepsPlan (storage : Storage (StateM σ)) (plan : σ → Option String) : Prop where
  load_eq {s s' : σ} {kept : Option String} :
    storage.load.run s = (.ok kept, s') → kept = plan s
  load {s s' : σ} {r : Except StoreError (Option String)} :
    storage.load.run s = (r, s') → plan s' = plan s
  save_ok {text : String} {s s' : σ} :
    (storage.save text).run s = (.ok (), s') → plan s' = some text
  save_error {text : String} {s s' : σ} {e : StoreError} :
    (storage.save text).run s = (.error e, s') → plan s' = plan s
  record {entry : SeedEntry} {s s' : σ} {r : Except StoreError Unit} :
    (storage.record entry).run s = (r, s') → plan s' = plan s
  draw {s s' : σ} {r : SeedDraw} : storage.draw.run s = (r, s') → plan s' = plan s

/-- The storage keeps the seeds that are recorded, as seen by a view of its states: only a seed that
is recorded with success is added to the log. -/
structure KeepsLog (storage : Storage (StateM σ)) (log : σ → List SeedEntry) : Prop where
  load {s s' : σ} {r : Except StoreError (Option String)} :
    storage.load.run s = (r, s') → log s' = log s
  save {text : String} {s s' : σ} {r : Except StoreError Unit} :
    (storage.save text).run s = (r, s') → log s' = log s
  record_ok {entry : SeedEntry} {s s' : σ} :
    (storage.record entry).run s = (.ok (), s') → log s' = log s ++ [entry]
  record_error {entry : SeedEntry} {s s' : σ} {e : StoreError} :
    (storage.record entry).run s = (.error e, s') → log s' = log s
  draw {s s' : σ} {r : SeedDraw} : storage.draw.run s = (r, s') → log s' = log s

/-! ### Drawing a seed -/

/-- What drawing a seed for a plan can do: nothing for a plan that needs none. -/
inductive Seeding (storage : Storage (StateM σ)) (plan : Plan Float) (s : σ) :
    Seeded Float → List StorageCall → σ → Prop
  | none (h : plan.needsSeed = false) : Seeding storage plan s ⟨plan, none⟩ [] s
  | drawn {draw : SeedDraw} {s' : σ} (h : plan.needsSeed = true)
      (hdraw : storage.draw.run s = (draw, s')) :
      Seeding storage plan s (plan.withSeed draw) [.draw draw] s'

theorem exists_seeding (storage : Storage (StateM σ)) (plan : Plan Float) (s : σ) :
    ∃ seeded draws s', Seeding storage plan s seeded draws s' := by
  cases h : plan.needsSeed with
  | false => exact ⟨_, _, _, .none h⟩
  | true => exact ⟨_, _, _, .drawn h rfl⟩

namespace Seeding

variable {plan : Plan Float} {s s' : σ} {seeded : Seeded Float} {draws : List StorageCall}

theorem run_eq (h : Seeding storage plan s seeded draws s') :
    (storage.seeded plan).run s = (seeded, s') := by
  cases h with
  | none h =>
    rw [Storage.seeded, h]
    rfl
  | drawn h hdraw => rw [Storage.seeded, if_pos h, run_map_eq hdraw]

theorem run_watched (h : Seeding storage plan s seeded draws s') (calls : List StorageCall) :
    ((storage.watched.seeded plan).run calls).run s = ((seeded, calls ++ draws), s') := by
  cases h with
  | none h =>
    rw [Storage.seeded, h, List.append_nil]
    rfl
  | drawn h hdraw =>
    rw [Storage.seeded, if_pos h, StateT.run_map, run_map_eq (run_watched_draw calls hdraw)]

/-- A plan that has got its seed is the plan with a seed that was drawn. -/
theorem exists_withSeed (h : Seeding storage plan s seeded draws s') :
    ∃ draw, seeded = plan.withSeed draw ∧ (plan.needsSeed = true → .draw draw ∈ draws) := by
  cases h with
  | none h => exact ⟨⟨0, 0⟩, by simp [Plan.withSeed, h], by simp [h]⟩
  | drawn h hdraw => exact ⟨_, rfl, fun _ => List.mem_singleton_self _⟩

theorem filter_isSave (h : Seeding storage plan s seeded draws s') :
    draws.filter StorageCall.isSave = [] := by
  cases h <;> rfl

theorem filter_isRecord (h : Seeding storage plan s seeded draws s') :
    draws.filter StorageCall.isRecord = [] := by
  cases h <;> rfl

theorem plan_eq {keep : σ → Option String} (hkeep : storage.KeepsPlan keep)
    (h : Seeding storage plan s seeded draws s') : keep s' = keep s := by
  cases h with
  | none h => rfl
  | drawn h hdraw => exact hkeep.draw hdraw

theorem log_eq {log : σ → List SeedEntry} (hlog : storage.KeepsLog log)
    (h : Seeding storage plan s seeded draws s') : log s' = log s := by
  cases h with
  | none h => rfl
  | drawn h hdraw => exact hlog.draw hdraw

end Seeding

/-! ### Recording a seed -/

/-- What recording a drawn seed can do: nothing if none was drawn. -/
inductive Recording (storage : Storage (StateM σ)) (s : σ) :
    Option SeedEntry → Option (SeedEntry × StoreError) → List StorageCall → σ → Prop
  | nothing : Recording storage s none none [] s
  | recorded {entry : SeedEntry} {s' : σ} (h : (storage.record entry).run s = (.ok (), s')) :
      Recording storage s (some entry) none [.record entry (.ok ())] s'
  | failed {entry : SeedEntry} {e : StoreError} {s' : σ}
      (h : (storage.record entry).run s = (.error e, s')) :
      Recording storage s (some entry) (some (entry, e)) [.record entry (.error e)] s'

theorem exists_recording (storage : Storage (StateM σ)) (entry : Option SeedEntry) (s : σ) :
    ∃ unrecorded records s', Recording storage s entry unrecorded records s' := by
  cases entry with
  | none => exact ⟨_, _, _, .nothing⟩
  | some entry =>
    rcases hrecord : (storage.record entry).run s with ⟨e | u, s'⟩
    · exact ⟨_, _, _, .failed hrecord⟩
    · exact ⟨_, _, _, .recorded hrecord⟩

namespace Recording

variable {s s' : σ} {entry : Option SeedEntry} {unrecorded : Option (SeedEntry × StoreError)}
  {records : List StorageCall}

theorem run_eq (h : Recording storage s entry unrecorded records s') :
    (storage.recordDrawn entry).run s = (unrecorded, s') := by
  cases h with
  | nothing => rfl
  | recorded h =>
    rw [recordDrawn, run_bind_eq h]
    rfl
  | failed h =>
    rw [recordDrawn, run_bind_eq h]
    rfl

theorem run_watched (h : Recording storage s entry unrecorded records s')
    (calls : List StorageCall) :
    ((storage.watched.recordDrawn entry).run calls).run s =
      ((unrecorded, calls ++ records), s') := by
  cases h with
  | nothing =>
    rw [List.append_nil]
    rfl
  | recorded h =>
    rw [recordDrawn, run_run_bind_eq (run_watched_record calls h)]
    rfl
  | failed h =>
    rw [recordDrawn, run_run_bind_eq (run_watched_record calls h)]
    rfl

theorem filter_isSave (h : Recording storage s entry unrecorded records s') :
    records.filter StorageCall.isSave = [] := by
  cases h <;> rfl

theorem plan_eq {keep : σ → Option String} (hkeep : storage.KeepsPlan keep)
    (h : Recording storage s entry unrecorded records s') : keep s' = keep s := by
  cases h with
  | nothing => rfl
  | recorded h => exact hkeep.record h
  | failed h => exact hkeep.record h

/-- An entry is recorded once, and is in the log afterwards if that succeeds. Without an entry
nothing is recorded. -/
theorem log_cases {log : σ → List SeedEntry} (hlog : storage.KeepsLog log)
    (h : Recording storage s entry unrecorded records s') :
    (entry = none ∧ records.filter StorageCall.isRecord = [] ∧ log s' = log s) ∨
      ∃ e r, entry = some e ∧ records.filter StorageCall.isRecord = [.record e r] ∧
        log s' = log s ++ if r.isOk then [e] else [] := by
  cases h with
  | nothing => exact .inl ⟨rfl, rfl, rfl⟩
  | recorded h => exact .inr ⟨_, _, rfl, rfl, hlog.record_ok h⟩
  | failed h =>
    refine .inr ⟨_, _, rfl, rfl, ?_⟩
    rw [hlog.record_error h]
    exact (List.append_nil _).symm

end Recording

end Storage

/-! ### Storages in memory -/

namespace Memory

variable {faults : Faults} {draw : SeedDraw}

/-- An action that can be made to fail leaves the memory as it is, or does what it does. -/
theorem unlessFault_cases {α : Type} {fault : Option StoreError} {act : StateM Memory α}
    {mem mem' : Memory} {r : Except StoreError α}
    (h : (unlessFault fault act).run mem = (r, mem')) :
    (∃ e, r = .error e ∧ mem' = mem) ∨ ∃ a, r = .ok a ∧ act.run mem = (a, mem') := by
  cases fault with
  | some e =>
    obtain ⟨rfl, rfl⟩ := Prod.mk.inj h
    exact .inl ⟨e, rfl, rfl⟩
  | none =>
    rw [unlessFault, StateT.run_map] at h
    obtain ⟨rfl, rfl⟩ := Prod.mk.inj h
    exact .inr ⟨_, rfl, rfl⟩

theorem load_cases {mem mem' : Memory} {r : Except StoreError (Option String)}
    (h : (storage faults draw).load.run mem = (r, mem')) :
    mem' = mem ∧ ∀ kept, r = .ok kept → kept = mem.plan := by
  obtain ⟨e, rfl, rfl⟩ | ⟨a, rfl, hact⟩ := unlessFault_cases h
  · exact ⟨rfl, fun kept h => nomatch h⟩
  · obtain ⟨rfl, rfl⟩ := Prod.mk.inj hact
    exact ⟨rfl, fun kept h => (Except.ok.inj h).symm⟩

theorem save_cases {text : String} {mem mem' : Memory} {r : Except StoreError Unit}
    (h : ((storage faults draw).save text).run mem = (r, mem')) :
    (∃ e, r = .error e ∧ mem' = mem) ∨
      r = .ok () ∧ mem' = { mem with plan := some text, saves := mem.saves + 1 } := by
  obtain ⟨e, rfl, rfl⟩ | ⟨a, rfl, hact⟩ := unlessFault_cases h
  · exact .inl ⟨e, rfl, rfl⟩
  · exact .inr ⟨rfl, (Prod.mk.inj hact).2.symm⟩

theorem record_cases {entry : SeedEntry} {mem mem' : Memory} {r : Except StoreError Unit}
    (h : ((storage faults draw).record entry).run mem = (r, mem')) :
    (∃ e, r = .error e ∧ mem' = mem) ∨
      r = .ok () ∧ mem' = { mem with entries := mem.entries ++ [entry] } := by
  obtain ⟨e, rfl, rfl⟩ | ⟨a, rfl, hact⟩ := unlessFault_cases h
  · exact .inl ⟨e, rfl, rfl⟩
  · exact .inr ⟨rfl, (Prod.mk.inj hact).2.symm⟩

theorem keepsPlan_storage : (storage faults draw).KeepsPlan Memory.plan where
  load_eq h := (load_cases h).2 _ rfl
  load h := congrArg Memory.plan (load_cases h).1
  save_ok h := by
    obtain ⟨e, he, -⟩ | ⟨-, rfl⟩ := save_cases h
    · cases he
    · rfl
  save_error h := by
    obtain ⟨e, -, rfl⟩ | ⟨he, -⟩ := save_cases h
    · rfl
    · cases he
  record h := by
    obtain ⟨e, -, rfl⟩ | ⟨-, rfl⟩ := record_cases h <;> rfl
  draw h := congrArg Memory.plan (Prod.mk.inj h).2.symm

theorem keepsLog_storage : (storage faults draw).KeepsLog Memory.entries where
  load h := congrArg Memory.entries (load_cases h).1
  save h := by
    obtain ⟨e, -, rfl⟩ | ⟨-, rfl⟩ := save_cases h <;> rfl
  record_ok h := by
    obtain ⟨e, he, -⟩ | ⟨-, rfl⟩ := record_cases h
    · cases he
    · rfl
  record_error h := by
    obtain ⟨e, -, rfl⟩ | ⟨he, -⟩ := record_cases h
    · rfl
    · cases he
  draw h := congrArg Memory.entries (Prod.mk.inj h).2.symm

end Memory

end Raceway
