import Mathlib
import Raceway.Request.Wording
/-!
# Passes that come to rest

A step is repeated until a pass changes nothing, at most some number of times. A step that shortens
every text that it changes has no more such passes than the text has characters. Of a step that
leaves what it has done, only the first pass changes something.

## Main definitions

* `Raceway.Wording.RestsAfter`: the number of passes that change a text.
* `Raceway.Wording.Progresses`: a pass that changes a text shortens it or is the last one to do so.

## Main results

* `Raceway.Wording.Progresses.exists_restsAfter`: such passes come to rest.
* `Raceway.Wording.Progresses.step_settle`: so the repetition ends since nothing is left to do.
-/

namespace Raceway.Wording

variable {step : List Char → List Char} {text : List Char}

/-! ### Repetition -/

/-- A step that leaves what it has done is done once. -/
theorem settle_succ (h : step (step text) = step text) (n : ℕ) :
    settle step (n + 1) text = step text := by
  rw [settle]
  split_ifs with hnext
  · exact hnext.symm
  · cases n with
    | zero => rfl
    | succ n => rw [settle, if_pos h]

/-- What a step keeps, its repetition keeps. -/
theorem settle_induction {motive : List Char → Prop}
    (hstep : ∀ t, motive t → motive (step t)) (n : ℕ) (h : motive text) :
    motive (settle step n text) := by
  induction n generalizing text with
  | zero => exact h
  | succ n ih =>
    rw [settle]
    split_ifs
    · exact h
    · exact ih (hstep text h)

/-- To repeat a step until it changes nothing is to repeat it as often as is tried at most. -/
theorem settle_eq_iterate (step : List Char → List Char) (n : ℕ) (text : List Char) :
    settle step n text = step^[n] text := by
  induction n generalizing text with
  | zero => rfl
  | succ n ih =>
    rw [settle]
    split_ifs with hnext
    · exact (Function.iterate_fixed hnext _).symm
    · rw [ih, Function.iterate_succ_apply]

/-! ### Coming to rest -/

/-- So many passes change the text, one after the other, and the next one does not. -/
structure RestsAfter (step : List Char → List Char) (text : List Char) (n : ℕ) : Prop where
  /-- Each of the passes changes the text. -/
  changes : ∀ k < n, step^[k + 1] text ≠ step^[k] text
  /-- The next one does not. -/
  rests : step^[n + 1] text = step^[n] text

/-- No pass changes a text that a step leaves as it is. -/
theorem restsAfter_zero (h : step text = text) : RestsAfter step text 0 :=
  ⟨fun k hk => absurd hk (Nat.not_lt_zero k), h⟩

/-- From the rest on further passes change nothing. -/
theorem RestsAfter.iterate_eq {n m : ℕ} (h : RestsAfter step text n) (hm : n ≤ m) :
    step^[m] text = step^[n] text := by
  obtain ⟨k, rfl⟩ := Nat.exists_eq_add_of_le' hm
  have hfixed : step (step^[n] text) = step^[n] text :=
    (Function.iterate_succ_apply' step n text).symm.trans h.rests
  rw [Function.iterate_add_apply, Function.iterate_fixed hfixed]

/-- One pass more, in front of the others. -/
theorem RestsAfter.cons {n : ℕ} (hne : step text ≠ text) (h : RestsAfter step (step text) n) :
    RestsAfter step text (n + 1) where
  changes
    | 0, _ => hne
    | k + 1, hk => h.changes k (Nat.lt_of_succ_lt_succ hk)
  rests := h.rests

/-- A pass that changes a text makes it shorter, or leaves one that the next pass does not change.
The empty text is never changed. -/
structure Progresses (step : List Char → List Char) : Prop where
  /-- The empty text stays empty. -/
  nil : step [] = []
  /-- The text becomes shorter, or comes to rest. -/
  of_ne : ∀ t, step t ≠ t → (step t).length < t.length ∨ step (step t) = step t

/-- Such passes come to rest, after no more of them than the text has characters. -/
theorem Progresses.exists_restsAfter (h : Progresses step) (text : List Char) :
    ∃ n ≤ text.length, RestsAfter step text n := by
  induction hlength : text.length using Nat.strongRecOn generalizing text with
  | ind l ih =>
    subst hlength
    by_cases hrest : step text = text
    · exact ⟨0, Nat.zero_le _, restsAfter_zero hrest⟩
    rcases h.of_ne text hrest with hshort | hnext
    · obtain ⟨n, hn, hrests⟩ := ih _ hshort (step text) rfl
      exact ⟨n + 1, hn.trans_lt hshort, hrests.cons hrest⟩
    · have hpos : 0 < text.length := by
        refine List.length_pos_iff.mpr fun hnil => hrest ?_
        rw [hnil, h.nil]
      exact ⟨1, hpos, (restsAfter_zero hnext).cons hrest⟩

/-- With as many tries as there are characters, what is left is not changed. -/
theorem Progresses.step_settle (h : Progresses step) {n : ℕ} (hn : text.length ≤ n) :
    step (settle step n text) = settle step n text := by
  obtain ⟨k, hk, hrests⟩ := h.exists_restsAfter text
  rw [settle_eq_iterate]
  calc step (step^[n] text) = step^[n + 1] text := (Function.iterate_succ_apply' step n text).symm
    _ = step^[k] text := hrests.iterate_eq ((hk.trans hn).trans (Nat.le_succ n))
    _ = step^[n] text := (hrests.iterate_eq (hk.trans hn)).symm

end Raceway.Wording
