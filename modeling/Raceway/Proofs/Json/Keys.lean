import Mathlib
import Raceway.Json.Reader
/-!
# What readers give

Each shape of a document gives what its parts give. An object of any keys is put in the order of its
keys, one after another, and a key that is there already gets the new value. So the keys that it
gives are in strict order, and none of them repeats, whatever is written.

## Main definitions

* `Raceway.Json.Reader.Yields`: whatever a reader gives has a property.

## Main results

* `Raceway.Json.Reader.yields_record` and `Raceway.Json.Reader.yields_elements`: records and lists.
* `Raceway.Json.Reader.yields_dict`: objects have no key twice.
-/

namespace Raceway.Json.Reader

variable {α β : Type} {P : α → Prop} {Q : β → Prop} {r : Reader α} {f : α → Reader β}

/-- Whatever the reader gives has the property. -/
def Yields (r : Reader α) (P : α → Prop) : Prop :=
  ∀ p a p', StateT.run r p = .ok (a, p') → P a

/-! ### Steps -/

theorem yields_pure {a : α} (h : P a) : (pure a : Reader α).Yields P := by
  intro p b p' hrun
  obtain ⟨rfl, rfl⟩ := Prod.mk.inj (Except.ok.inj hrun)
  exact h

theorem Yields.bind (h : r.Yields P) (hf : ∀ a, P a → (f a).Yields Q) : (r >>= f).Yields Q := by
  intro p b p' hrun
  rw [StateT.run_bind] at hrun
  cases ha : StateT.run r p with
  | error e =>
    rw [ha] at hrun
    cases hrun
  | ok result =>
    rw [ha] at hrun
    exact hf result.1 (h p result.1 result.2 ha) result.2 b p' hrun

/-- What a step gives does not matter where the next one does not depend on it. -/
theorem yields_bind (hf : ∀ a, (f a).Yields Q) : (r >>= f).Yields Q := by
  have htrivial : r.Yields fun _ => True := fun _ _ _ _ => trivial
  exact htrivial.bind fun a _ => hf a

theorem yields_throw {e : ReadError} : (throw e : Reader α).Yields P := by
  intro p a p' hrun
  cases hrun

theorem yields_failHere {fault : Fault} : (failHere fault : Reader α).Yields P :=
  yields_bind fun _ => yields_throw

theorem yields_failNext {fault : Fault} : (failNext fault : Reader α).Yields P :=
  yields_bind fun _ => yields_throw

theorem yields_unexpected {c : Char} {expected : String} :
    (unexpected c expected : Reader α).Yields P := by
  unfold unexpected
  split
  · exact yields_bind fun _ => yields_bind fun _ => yields_failHere
  · exact yields_bind fun _ => yields_bind fun _ => yields_failHere
  · exact yields_bind fun _ => yields_bind fun _ => yields_failHere
  · exact yields_bind fun _ => yields_bind fun _ => yields_failHere
  · exact yields_failHere
  · exact yields_failHere
  · split
    · exact yields_bind fun _ => yields_failHere
    · exact yields_failNext

theorem yields_failClosed {fault : Fault} : (failClosed fault : Reader α).Yields P := by
  refine yields_bind fun c => ?_
  split
  · exact yields_bind fun _ => yields_failHere
  · exact yields_failHere

/-- A text that is read whole gives what the reader gives. -/
theorem Yields.of_run {text : List Char} {a : α} (h : r.Yields P) (hrun : run r text = .ok a) :
    P a := by
  have hgo : (run.go r).Yields P := by
    refine h.bind fun a ha => yields_bind fun c => ?_
    cases c with
    | none => exact yields_pure ha
    | some c => exact yields_failNext
  rw [run] at hrun
  cases hresult : StateT.run (run.go r) (Place.start text) with
  | error e =>
    rw [hresult] at hrun
    cases hrun
  | ok result =>
    rw [hresult] at hrun
    exact Except.ok.inj hrun ▸ hgo _ _ _ hresult

/-! ### Lists -/

theorem yields_itemsWithin (h : r.Yields P) (fuel : ℕ) (first : Bool) :
    (itemsWithin r fuel first).Yields fun l => ∀ a ∈ l, P a := by
  induction fuel generalizing first with
  | zero => exact yields_pure (List.forall_mem_nil P)
  | succ fuel ih =>
    refine yields_bind fun more => ?_
    cases more with
    | false => exact yields_pure (List.forall_mem_nil P)
    | true =>
      exact h.bind fun a ha => (ih false).bind fun l hl =>
        yields_pure (List.forall_mem_cons.mpr ⟨ha, hl⟩)

/-- A list gives items. -/
theorem yields_elements (h : r.Yields P) : (elements r).Yields fun l => ∀ a ∈ l, P a := by
  refine yields_bind fun c => ?_
  split
  · refine yields_bind fun _ => yields_bind fun fuel => ?_
    exact (yields_itemsWithin h fuel true).bind fun l hl => yields_bind fun _ => yields_pure hl
  · exact yields_unexpected

/-! ### Records -/

section Records

variable {fields : List (Field α)} {a : α}

theorem yields_recordMembers (hset : ∀ field ∈ fields, ∀ a, P a → (field.set a).Yields P)
    (fuel : ℕ) (seen : List String) (first : Bool) (ha : P a) :
    (recordMembers fields fuel seen first a).Yields fun result => P result.1 := by
  induction fuel generalizing seen first a with
  | zero => exact yields_pure ha
  | succ fuel ih =>
    refine yields_bind fun more => ?_
    cases more with
    | false => exact yields_pure ha
    | true =>
      refine yields_bind fun k => ?_
      split
      · exact yields_bind fun _ => yields_bind fun _ => ih seen false ha
      · rename_i field hfield
        split
        · exact yields_failClosed
        · refine yields_bind fun _ => ?_
          exact (hset field (List.mem_of_find?_eq_some hfield) a ha).bind fun b hb =>
            ih (k :: seen) false hb

theorem yields_recordItems {expected : String} {count : ℕ}
    (hset : ∀ field ∈ fields, ∀ a, P a → (field.set a).Yields P) (ha : P a) :
    (recordItems expected count fields a).Yields P := by
  induction fields generalizing count a with
  | nil => exact yields_pure ha
  | cons field rest ih =>
    obtain ⟨hfield, hrest⟩ := List.forall_mem_cons.mp hset
    refine yields_bind fun more => ?_
    cases more with
    | true => exact (hfield a ha).bind fun b hb => ih hrest hb
    | false =>
      change (if field.optional = true then _ else _ : Reader α).Yields P
      split
      · exact ih hrest ha
      · exact yields_bind fun _ => yields_failHere

/-- A record that starts with a property keeps it if all of its fields do. -/
theorem yields_record {name : String}
    (hset : ∀ field ∈ fields, ∀ a, P a → (field.set a).Yields P) (ha : P a) :
    (record name fields a).Yields P := by
  refine yields_bind fun c => ?_
  split
  · refine yields_bind fun _ => ?_
    exact (yields_recordItems hset ha).bind fun b hb => yields_bind fun _ => yields_pure hb
  · refine yields_bind fun _ => yields_bind fun fuel => ?_
    refine (yields_recordMembers hset fuel [] true ha).bind fun result hresult => ?_
    dsimp only
    split
    · exact yields_failClosed
    · exact yields_bind fun _ => yields_pure hresult
  · exact yields_unexpected

end Records

/-! ### Objects of any keys -/

section Objects

variable {k : String} {v : α} {members : List (String × α)}

theorem mem_keys_insertSorted {l : String} :
    l ∈ (insertSorted k v members).map Prod.fst ↔ l = k ∨ l ∈ members.map Prod.fst := by
  induction members with
  | nil => simp [insertSorted]
  | cons x rest ih =>
    obtain ⟨first, w⟩ := x
    rw [insertSorted]
    split_ifs with heq hbelow
    · subst heq
      simp
    · simp
    · rw [List.map_cons, List.map_cons, List.mem_cons, List.mem_cons, ih]
      exact or_left_comm

/-- A key is put between those before it and those behind it. -/
theorem pairwise_insertSorted (h : (members.map Prod.fst).Pairwise (· < ·)) :
    ((insertSorted k v members).map Prod.fst).Pairwise (· < ·) := by
  induction members with
  | nil => exact List.pairwise_singleton _ _
  | cons x rest ih =>
    obtain ⟨first, w⟩ := x
    obtain ⟨hfirst, hrest⟩ := List.pairwise_cons.mp h
    rw [insertSorted]
    split_ifs with heq hbelow
    · subst heq
      exact h
    · have hlt : k < first := of_decide_eq_true hbelow
      refine List.pairwise_cons.mpr ⟨fun l hl => ?_, h⟩
      rcases List.mem_cons.mp hl with rfl | hl
      · exact hlt
      · exact hlt.trans (hfirst l hl)
    · have hlt : first < k :=
        lt_of_le_of_ne (not_lt.mp (mt decide_eq_true hbelow)) (Ne.symm heq)
      refine List.pairwise_cons.mpr ⟨fun l hl => ?_, ih hrest⟩
      rcases mem_keys_insertSorted.mp hl with rfl | hl
      · exact hlt
      · exact hfirst l hl

theorem pairwise_sorted (members : List (String × α)) :
    ((sorted members).map Prod.fst).Pairwise (· < ·) := by
  have hfold (start : List (String × α)) (h : (start.map Prod.fst).Pairwise (· < ·)) :
      ((members.foldl (fun sorted x => insertSorted x.1 x.2 sorted) start).map
        Prod.fst).Pairwise (· < ·) := by
    induction members generalizing start with
    | nil => exact h
    | cons x rest ih => exact ih _ (pairwise_insertSorted h)
  exact hfold [] .nil

/-- An object gives no key twice. -/
theorem yields_dict (r : Reader α) :
    (dict r).Yields fun members => (members.map Prod.fst).Nodup := by
  refine yields_bind fun c => ?_
  split
  · refine yields_bind fun _ => yields_bind fun _ => yields_bind fun members => ?_
    exact yields_bind fun _ => yields_pure ((pairwise_sorted members).imp ne_of_lt)
  · exact yields_unexpected

end Objects

end Raceway.Json.Reader
