import Mathlib
/-!
# Results of steps that can fail

Readers, bindings and executions give a value or an error. A computation made of such steps gives a
value where all of its steps do, and what it gives comes from one of them.

## Main results

* `Raceway.mapM_eq_ok_iff` and `Raceway.exists_of_mapM_eq_error`: a traversal gives the values of
  all of its steps, or the error of the first step that fails.
* `Raceway.mapM_eq_ok`, `Raceway.exists_of_mem_mapM`, `Raceway.exists_of_mapM_eq_ok` and
  `Raceway.mem_of_mapM`: so what it gives comes from one of its steps, and each of its steps gives
  something, which is among that.
* `Raceway.flatten_filterMap_toOption`: the lists of the results that are no errors.
* `Raceway.foldlM_cons_of_ok` and `Raceway.foldlM_append_of_ok`: a fold goes on where its front
  ends.
* `Raceway.foldlM_induction`: what holds at the start and is kept by every step holds in the end.
-/

namespace Raceway

variable {ε α β : Type}

/-! ### One step after another -/

theorem ok_bind (a : α) (f : α → Except ε β) : (Except.ok a >>= f) = f a :=
  rfl

theorem bind_eq_ok {x : Except ε α} {f : α → Except ε β} {b : β} (h : (x >>= f) = .ok b) :
    ∃ a, x = .ok a ∧ f a = .ok b := by
  cases x with
  | error e => cases h
  | ok a => exact ⟨a, rfl, h⟩

theorem map_eq_ok {x : Except ε α} {f : α → β} {b : β} (h : x.map f = .ok b) :
    ∃ a, x = .ok a ∧ f a = b := by
  cases x with
  | error e => cases h
  | ok a => exact ⟨a, rfl, Except.ok.inj h⟩

theorem ok_of_toOption {x : Except ε α} {a : α} (h : x.toOption = some a) : x = .ok a := by
  cases x with
  | error e => cases h
  | ok b => exact congrArg Except.ok (Option.some.inj h)

/-! ### Traversals -/

/-- A traversal succeeds with the values of all of its steps. -/
theorem mapM_eq_ok_iff {f : α → Except ε β} {l : List α} {r : List β} :
    l.mapM f = .ok r ↔ List.Forall₂ (fun a b => f a = .ok b) l r := by
  induction l generalizing r with
  | nil =>
    rw [List.mapM_nil, List.forall₂_nil_left_iff]
    exact ⟨fun h => (Except.ok.inj h).symm, fun h => h ▸ rfl⟩
  | cons a l ih =>
    rw [List.mapM_cons]
    constructor
    · intro h
      obtain ⟨b, hb, h⟩ := bind_eq_ok h
      obtain ⟨bs, hbs, h⟩ := bind_eq_ok h
      obtain rfl := Except.ok.inj h
      exact .cons hb (ih.mp hbs)
    · rintro (_ | ⟨hb, hbs⟩)
      rw [hb, ok_bind, ih.mpr hbs]
      rfl

/-- A traversal in which every step succeeds. -/
theorem mapM_eq_ok {f : α → Except ε β} {g : α → β} {l : List α}
    (h : ∀ a ∈ l, f a = .ok (g a)) : l.mapM f = .ok (l.map g) := by
  rw [mapM_eq_ok_iff, List.forall₂_map_right_iff, List.forall₂_same]
  exact h

/-- What a traversal gives comes from one of its steps. -/
theorem exists_of_mem_mapM {f : α → Except ε β} {l : List α} {r : List β}
    (h : l.mapM f = .ok r) {b : β} (hb : b ∈ r) : ∃ a ∈ l, f a = .ok b := by
  replace h := mapM_eq_ok_iff.mp h
  induction h with
  | nil => exact absurd hb List.not_mem_nil
  | @cons a c l r hc _ ih =>
    rcases List.mem_cons.mp hb with rfl | hb
    · exact ⟨a, List.mem_cons_self, hc⟩
    · obtain ⟨a', ha', hf⟩ := ih hb
      exact ⟨a', List.mem_cons_of_mem _ ha', hf⟩

/-- In a traversal that succeeds, every step does. -/
theorem exists_of_mapM_eq_ok {f : α → Except ε β} {l : List α} {r : List β}
    (h : l.mapM f = .ok r) {a : α} (ha : a ∈ l) : ∃ b, f a = .ok b := by
  replace h := mapM_eq_ok_iff.mp h
  induction h with
  | nil => exact absurd ha List.not_mem_nil
  | @cons c d l r hc _ ih =>
    rcases List.mem_cons.mp ha with rfl | ha
    · exact ⟨d, hc⟩
    · exact ih ha

/-- What a step gives is among what the traversal gives. -/
theorem mem_of_mapM {f : α → Except ε β} {l : List α} {r : List β} (h : l.mapM f = .ok r) {a : α}
    {b : β} (ha : a ∈ l) (hb : f a = .ok b) : b ∈ r := by
  replace h := mapM_eq_ok_iff.mp h
  induction h with
  | nil => exact absurd ha List.not_mem_nil
  | @cons c d l r hc _ ih =>
    rcases List.mem_cons.mp ha with rfl | ha
    · exact Except.ok.inj (hb.symm.trans hc) ▸ List.mem_cons_self
    · exact List.mem_cons_of_mem _ (ih ha)

/-- A traversal that fails has the error of its first step that fails. -/
theorem exists_of_mapM_eq_error {f : α → Except ε β} {l : List α} {e : ε}
    (h : l.mapM f = .error e) :
    ∃ before a after, l = before ++ a :: after ∧ (∀ b ∈ before, ∃ c, f b = .ok c) ∧
      f a = .error e := by
  induction l with
  | nil => cases h
  | cons a l ih =>
    rw [List.mapM_cons] at h
    cases ha : f a with
    | error e' =>
      rw [ha] at h
      exact ⟨[], a, l, rfl, List.forall_mem_nil _, ha.trans (Except.error.inj h ▸ rfl)⟩
    | ok c =>
      rw [ha, ok_bind] at h
      cases hl : l.mapM f with
      | error e' =>
        rw [hl] at h
        obtain ⟨before, a', after, rfl, hbefore, ha'⟩ := ih (hl.trans (Except.error.inj h ▸ rfl))
        exact ⟨a :: before, a', after, rfl, List.forall_mem_cons.mpr ⟨⟨c, ha⟩, hbefore⟩, ha'⟩
      | ok cs =>
        rw [hl] at h
        cases h

/-- The lists that results give, one after another. -/
theorem flatten_filterMap_toOption (l : List (Except ε (List α))) :
    (l.filterMap Except.toOption).flatten = l.flatMap fun x => x.toOption.getD [] := by
  induction l with
  | nil => rfl
  | cons x l ih =>
    cases x with
    | error e => exact ih
    | ok r => exact congrArg (r ++ ·) ih

/-! ### Folds -/

/-- A fold over a list goes on where the fold over its front ends. -/
theorem foldlM_append_of_ok {f : β → α → Except ε β} {s : List α} {b b' : β}
    (h : s.foldlM f b = .ok b') (t : List α) : (s ++ t).foldlM f b = t.foldlM f b' := by
  rw [List.foldlM_append, h]
  rfl

theorem foldlM_cons_of_ok {f : β → α → Except ε β} {a : α} {b b' : β}
    (h : f b a = .ok b') (t : List α) : (a :: t).foldlM f b = t.foldlM f b' := by
  rw [List.foldlM_cons, h]
  rfl

/-- What holds at the start and is kept by every step, of the elements so far and of what the fold
has made of them, holds in the end. -/
theorem foldlM_induction {f : β → α → Except ε β} {P : List α → β → Prop} {l : List α} {b b' : β}
    (hstart : P [] b)
    (hstep : ∀ before a c c', P before c → f c a = .ok c' → P (before ++ [a]) c')
    (h : l.foldlM f b = .ok b') : P l b' := by
  induction l using List.reverseRecOn generalizing b' with
  | nil => exact Except.ok.inj h ▸ hstart
  | append_singleton before a ih =>
    rw [List.foldlM_append] at h
    obtain ⟨c, hc, h⟩ := bind_eq_ok h
    rw [List.foldlM_cons] at h
    obtain ⟨c', hc', h⟩ := bind_eq_ok h
    exact Except.ok.inj h ▸ hstep before a c c' (ih hc) hc'

end Raceway
