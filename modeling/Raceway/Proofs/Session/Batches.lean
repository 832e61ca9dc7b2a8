import Mathlib
import Raceway.Proofs.Storage.Calls
import Raceway.Session.Editor
/-!
# Requests in batches

Requests that wait together are carried out one after the other, on the track and with the storage
that the one before has left. So it makes no difference how a sequence of requests is cut into
batches: the storage, the track and the history are as if each request had waited alone. The history
gains one entry for each request, in order, and lets go of as many of the oldest ones as it has no
room for. Without a rulebook each request is turned down, and nothing else happens.

## Main definitions

* `Raceway.Editor.applyBatches`: carrying out requests in batches.
* `Raceway.Editor.editAll`: requests one after the other, and what becomes of each.

## Main results

* `Raceway.History.entries_pushAll`: what a history keeps of many things.
* `Raceway.Editor.applyBatches_eq`: batches of requests are requests one after the other.
* `Raceway.Editor.applyBatches_of_flatten_eq`: how requests are cut into batches makes no
  difference.
-/

namespace Raceway

open Storage

/-! ### Histories -/

/-- Entries that are dropped early make no difference. -/
theorem lastEntries_lastEntries_append {α : Type} (n : ℕ) (l l' : List α) :
    lastEntries n (lastEntries n l ++ l') = lastEntries n (l ++ l') := by
  rcases le_total l.length n with hle | hle
  · rw [lastEntries, lastEntries, Nat.sub_eq_zero_of_le hle, List.drop_zero, lastEntries]
  · rw [lastEntries, lastEntries, lastEntries, ← List.drop_append_of_le_length (Nat.sub_le ..),
      List.drop_drop, List.length_drop, List.length_append]
    congr 1
    omega

namespace History

variable {α : Type}

/-- Add things in order. -/
def pushAll (h : History α) (l : List α) : History α :=
  l.foldl push h

/-- Of all things, the newest ones are kept. -/
theorem entries_pushAll (h : History α) (l : List α) :
    (h.pushAll l).entries = lastEntries capacity (h.entries ++ l) := by
  induction l generalizing h with
  | nil =>
    rw [List.append_nil, lastEntries, Nat.sub_eq_zero_of_le h.length_le]
    rfl
  | cons a l ih =>
    have hpush : h.pushAll (a :: l) = (h.push a).pushAll l := rfl
    rw [hpush, ih, entries_push, lastEntries_lastEntries_append, List.append_assoc]
    rfl

end History

namespace Editor

/-! ### Batches -/

section Batches

variable {m : Type → Type} [Monad m]

/-- Let requests wait in order. -/
def enqueue (e : Editor) (requests : List Request) : Editor :=
  requests.foldl push e

/-- Carry out requests in batches: those of a batch wait together. -/
def applyBatches (storage : Storage m) (batches : List (List Request)) (e : Editor) : m Editor :=
  batches.foldlM (fun e batch => (e.enqueue batch).applyWaiting storage) e

/-- Carry out requests one after the other on a track, and note what becomes of each of them. -/
def editAll (storage : Storage m) (settings : Settings) (book : Rulebook) :
    List Request → Track → m (List Edited × Track)
  | [], t => pure ([], t)
  | r :: requests, t => do
    let (result, t) ← edit storage settings book r.text t
    let (edited, t) ← editAll storage settings book requests t
    return (⟨r, .ofResult result⟩ :: edited, t)

/-- The editor with a track, and with a note of requests that were carried out. -/
def noted (e : Editor) (edited : List Edited) (track : Track) : Editor :=
  { e with track := track, history := e.history.pushAll edited }

variable {e : Editor}

theorem enqueue_eq (e : Editor) (requests : List Request) :
    e.enqueue requests = { e with waiting := e.waiting ++ requests } := by
  induction requests generalizing e with
  | nil => rw [List.append_nil]; rfl
  | cons r requests ih =>
    have hpush : e.enqueue (r :: requests) = (e.push r).enqueue requests := rfl
    rw [hpush, ih, push, List.append_assoc]
    rfl

variable (storage : Storage m)

/-- A batch is carried out request by request. -/
theorem applyWaiting_enqueue {book : Rulebook} (hwaiting : e.waiting = [])
    (hrules : e.rules = .ok book) (requests : List Request) :
    (e.enqueue requests).applyWaiting storage = requests.foldlM (apply storage book) e := by
  obtain ⟨rules, settings, track, waiting, history⟩ := e
  obtain rfl : waiting = [] := hwaiting
  obtain rfl : rules = .ok book := hrules
  rw [enqueue_eq]
  rfl

/-- The notes of requests that are turned down. -/
def refusals (error : RulebookError) (requests : List Request) : List Edited :=
  requests.map (⟨·, .ofFailure (.rules error)⟩)

theorem foldl_refuse (error : RulebookError) (requests : List Request) (e : Editor) :
    requests.foldl (refuse error) e = e.noted (refusals error requests) e.track := by
  induction requests generalizing e with
  | nil => rfl
  | cons r requests ih => rw [List.foldl_cons, ih]; rfl

/-- Without a rulebook, a batch is turned down request by request. -/
theorem applyWaiting_enqueue_of_error {error : RulebookError} (hwaiting : e.waiting = [])
    (hrules : e.rules = .error error) (requests : List Request) :
    (e.enqueue requests).applyWaiting storage =
      pure (e.noted (refusals error requests) e.track) := by
  obtain ⟨rules, settings, track, waiting, history⟩ := e
  obtain rfl : waiting = [] := hwaiting
  obtain rfl : rules = .error error := hrules
  rw [enqueue_eq, ← foldl_refuse]
  rfl

variable [LawfulMonad m]

/-- Requests that are carried out one after the other are noted in the history in order. -/
theorem foldlM_apply (book : Rulebook) (requests : List Request) (e : Editor) :
    requests.foldlM (apply storage book) e =
      (fun r => e.noted r.1 r.2) <$> editAll storage e.settings book requests e.track := by
  induction requests generalizing e with
  | nil =>
    rw [List.foldlM_nil, editAll, map_pure]
    rfl
  | cons r requests ih =>
    rw [List.foldlM_cons, apply, editAll, bind_assoc, map_bind]
    refine bind_congr fun x => ?_
    rw [pure_bind, ih, map_bind, map_eq_pure_bind]
    refine bind_congr fun y => ?_
    rw [map_pure]
    rfl

/-- With a rulebook, batches of requests are requests one after the other. -/
theorem applyBatches_eq {book : Rulebook} (hwaiting : e.waiting = []) (hrules : e.rules = .ok book)
    (batches : List (List Request)) :
    e.applyBatches storage batches =
      (fun r => e.noted r.1 r.2) <$>
        editAll storage e.settings book batches.flatten e.track := by
  rw [← foldlM_apply]
  induction batches generalizing e with
  | nil => rfl
  | cons batch batches ih =>
    have hcons : e.applyBatches storage (batch :: batches) =
        (e.enqueue batch).applyWaiting storage >>= fun e => e.applyBatches storage batches := rfl
    rw [hcons, applyWaiting_enqueue storage hwaiting hrules, List.flatten_cons, List.foldlM_append,
      foldlM_apply, bind_map_left, bind_map_left]
    -- What a batch leaves waits for nothing and has the same rulebook.
    exact bind_congr fun r => ih (e := e.noted r.1 r.2) hwaiting hrules

/-- Without a rulebook, every request is turned down. -/
theorem applyBatches_of_error {error : RulebookError} (hwaiting : e.waiting = [])
    (hrules : e.rules = .error error) (batches : List (List Request)) :
    e.applyBatches storage batches =
      pure (e.noted (refusals error batches.flatten) e.track) := by
  induction batches generalizing e with
  | nil => rfl
  | cons batch batches ih =>
    have hcons : e.applyBatches storage (batch :: batches) =
        (e.enqueue batch).applyWaiting storage >>= fun e => e.applyBatches storage batches := rfl
    rw [hcons, applyWaiting_enqueue_of_error storage hwaiting hrules, pure_bind,
      ih (e := e.noted (refusals error batch) e.track) hwaiting hrules, List.flatten_cons]
    simp only [noted, History.pushAll, refusals, List.map_append, List.foldl_append]

end Batches

section Runs

variable {σ : Type} {storage : Storage (StateM σ)} {e : Editor}

theorem run_editAll_cons {settings : Settings} {book : Rulebook} {r : Request}
    {requests : List Request} {t t' track : Track} {result : Except Failure Outcome}
    {edited : List Edited} {s s' s'' : σ}
    (hfirst : (edit storage settings book r.text t).run s = ((result, t'), s'))
    (hrest : (editAll storage settings book requests t').run s' = ((edited, track), s'')) :
    (editAll storage settings book (r :: requests) t).run s =
      ((⟨r, .ofResult result⟩ :: edited, track), s'') := by
  rw [editAll, Storage.run_bind_eq hfirst, Storage.run_bind_eq hrest]
  rfl

/-- There is one note for each request, in order. -/
theorem exists_of_editAll (storage : Storage (StateM σ)) (settings : Settings) (book : Rulebook)
    (requests : List Request) (t : Track) (s : σ) :
    ∃ edited track s', (editAll storage settings book requests t).run s = ((edited, track), s') ∧
      edited.map Edited.request = requests := by
  induction requests generalizing t s with
  | nil => exact ⟨[], t, s, rfl, rfl⟩
  | cons r requests ih =>
    obtain ⟨⟨⟨result, t'⟩, s'⟩, hfirst⟩ :
        ∃ x, (edit storage settings book r.text t).run s = x := ⟨_, rfl⟩
    obtain ⟨edited, track, s'', hrest, hrequests⟩ := ih t' s'
    exact ⟨_, track, s'', run_editAll_cons hfirst hrest, congrArg (r :: ·) hrequests⟩

/-- How requests are cut into batches makes no difference to the storage, the track and the history.
What is left has the notes of the old history followed by one for each request, in order, of which
the last 64 are kept. With a rulebook, each note is what becomes of the request on the track and
with the storage that those before it leave; without one, each request fails at the stage of the
rules, and the track and the storage are left alone. -/
theorem applyBatches_of_flatten_eq (storage : Storage (StateM σ)) (hwaiting : e.waiting = [])
    {batches batches' : List (List Request)} (hsame : batches.flatten = batches'.flatten) (s : σ) :
    (e.applyBatches storage batches').run s = (e.applyBatches storage batches).run s ∧
      ∃ edited track s', (e.applyBatches storage batches).run s = (e.noted edited track, s') ∧
        (e.noted edited track).history.entries = lastEntries 64 (e.history.entries ++ edited) ∧
        edited.map Edited.request = batches.flatten ∧
        (∀ book, e.rules = .ok book →
          (editAll storage e.settings book batches.flatten e.track).run s =
            ((edited, track), s')) ∧
        ∀ error, e.rules = .error error →
          (∀ note ∈ edited, note.verdict = .failed "rules" (Failure.rules error).message) ∧
            track = e.track ∧ s' = s := by
  cases hrules : e.rules with
  | ok book =>
    have hrun := applyBatches_eq storage hwaiting hrules
    obtain ⟨edited, track, s', hedit, hrequests⟩ :=
      exists_of_editAll storage e.settings book batches.flatten e.track s
    refine ⟨by rw [hrun, hrun, hsame], edited, track, s', ?_, ?_, hrequests, ?_, fun _ h => ?_⟩
    · rw [hrun, Storage.run_map_eq hedit]
    · exact History.entries_pushAll ..
    · rintro _ ⟨⟩
      exact hedit
    · cases h
  | error error =>
    have hrun := applyBatches_of_error storage hwaiting hrules
    refine ⟨by rw [hrun, hrun, hsame], refusals error batches.flatten, e.track, s, ?_, ?_, ?_,
      fun _ h => ?_, ?_⟩
    · rw [hrun]; rfl
    · exact History.entries_pushAll ..
    · rw [refusals, List.map_map]
      exact List.map_id _
    · cases h
    · rintro _ ⟨⟩
      refine ⟨fun note hnote => ?_, rfl, rfl⟩
      obtain ⟨r, -, rfl⟩ := List.mem_map.1 hnote
      rfl

/-- The first request is given a seed, which the second one finds in the plan. -/
theorem applyBatches_of_flatten_eq_pair :
    let storage := Memory.storage {} ⟨7, 0⟩
    let mem : Memory := { plan := some "buildAbs(1,1)\nrandomHoles(50)\n" }
    let e : Editor := { rules := .ok ⟨1, [], []⟩ }
    let batch : List Request := [⟨.designer, ""⟩, ⟨.script, ""⟩]
    let run := (e.applyBatches storage [batch]).run mem
    e.waiting = [] ∧ [batch].flatten = (batch.map ([·])).flatten ∧
      (e.applyBatches storage (batch.map ([·]))).run mem = run ∧
      run.1.history.entries.map Edited.request = batch ∧
      run.2.saves = 2 ∧ run.2.entries.length = 1 := by
  intro storage mem e batch run
  have hflatten : [batch].flatten = (batch.map ([·])).flatten := rfl
  obtain ⟨hrun, edited, track, s', hedited, hentries, hrequests, -⟩ :=
    applyBatches_of_flatten_eq storage (e := e) rfl hflatten mem
  have hlength : edited.length = 2 := by
    rw [← List.length_map Edited.request, hrequests]
    rfl
  refine ⟨rfl, hflatten, hrun, ?_, by decide +kernel, by decide +kernel⟩
  have hkept : run.1 = e.noted edited track := congrArg Prod.fst hedited
  have hfit : edited.length ≤ 64 := by omega
  have hall : lastEntries 64 edited = edited := by
    rw [lastEntries, Nat.sub_eq_zero_of_le hfit, List.drop_zero]
  rw [hkept, hentries]
  exact (congrArg (List.map Edited.request) hall).trans hrequests

end Runs

end Editor

end Raceway
