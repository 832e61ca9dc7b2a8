import Mathlib
import Raceway.Text.Blank
/-!
# Words from the front

The words of a text are read from its end. Seen from its front, blanks are passed over, and a word
goes on up to the next blank.

## Main results

* `Raceway.Text.words_append`: a word, and the words behind it.
-/

namespace Raceway.Text

variable {c : Char} {w s : List Char}

/-- The flag of reading words tells whether the text starts with a word. -/
theorem fst_foldr_wordStep (s : List Char) :
    (s.foldr wordStep (false, [])).1 = s.head?.any fun c => !isBlank c := by
  cases s with
  | nil => rfl
  | cons c s =>
    simp only [List.foldr_cons, wordStep, List.head?_cons, Option.any_some]
    split_ifs <;> simp_all

/-- Blanks are passed over. -/
theorem words_cons_of_blank (hc : isBlank c = true) (s : List Char) : words (c :: s) = words s := by
  simp [words, wordStep, hc]

/-- In front of a word, a character belongs to it. -/
theorem words_push (hc : isBlank c = false) (hs : s.head?.any fun c => !isBlank c) :
    words (c :: s) = pushLine c (words s) := by
  simp [words, wordStep, hc, fst_foldr_wordStep s, hs]

/-- In front of a blank or of the end, a character is a word. -/
theorem words_last (hc : isBlank c = false) (hs : ¬ s.head?.any fun c => !isBlank c) :
    words (c :: s) = [c] :: words s := by
  simp [words, wordStep, hc, fst_foldr_wordStep s, hs]

/-- A word goes on up to the next blank, or to the end. -/
theorem words_append (hne : w ≠ []) (hw : ∀ c ∈ w, isBlank c = false)
    (hs : ∀ c, s.head? = some c → isBlank c = true) : words (w ++ s) = w :: words s := by
  have hstop : ¬ s.head?.any fun c => !isBlank c := by
    cases h : s.head? with
    | none => simp
    | some c => simp [hs c h]
  induction w with
  | nil => exact absurd rfl hne
  | cons c w ih =>
    obtain ⟨hc, hw⟩ := List.forall_mem_cons.mp hw
    cases w with
    | nil => exact words_last hc hstop
    | cons d w =>
      have hd : ((d :: w) ++ s).head?.any fun c => !isBlank c := by
        simp [hw d List.mem_cons_self]
      rw [List.cons_append, words_push hc hd, ih (List.cons_ne_nil d w) hw]
      rfl

end Raceway.Text
