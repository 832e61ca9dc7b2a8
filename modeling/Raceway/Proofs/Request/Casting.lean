import Mathlib
import Raceway.Proofs.Decimal.Numerals
import Raceway.Request.Cast
/-!
# Casting to integers

An integer is written with ASCII digits and at most one sign in front. The cast takes exactly the
texts that write an integer of 64 bits, with any blanks around them, and those with a plus in front
of the minus, where the plus makes no difference.

## Main definitions

* `Raceway.Decimal.Writes`: a text writes an integer.

## Main results

* `Raceway.CaptureType.cast?_int_eq_some_iff`: what the cast takes, and what it gives.
* `Raceway.CaptureType.cast?_int_plus_minus`: a text with two signs that the cast takes.
-/

namespace Raceway

open Text Decimal

/-! ### Texts that write integers -/

namespace Decimal

/-- The text has ASCII digits only, and at least one. -/
structure IsDigits (ds : List Char) : Prop where
  ne_nil : ds ≠ []
  isDigit : ∀ c ∈ ds, c.isDigit = true

/-- The text writes the integer: decimal digits, with at most one sign in front. -/
inductive Writes : List Char → ℤ → Prop
  | unsigned {ds : List Char} (h : IsDigits ds) : Writes ds (digitsValue ds)
  | plus {ds : List Char} (h : IsDigits ds) : Writes ('+' :: ds) (digitsValue ds)
  | minus {ds : List Char} (h : IsDigits ds) : Writes ('-' :: ds) (-digitsValue ds)

section

variable {ds text : List Char} {n : ℤ}

theorem isDigits_iff : ds ≠ [] ∧ ds.all Char.isDigit = true ↔ IsDigits ds := by
  rw [List.all_eq_true]
  exact ⟨fun h => ⟨h.1, h.2⟩, fun h => ⟨h.ne_nil, h.isDigit⟩⟩

/-- Digits have no sign in front. -/
theorem IsDigits.exists_cons (h : IsDigits ds) {sign : Char} (hsign : sign.isDigit = false) :
    ∃ c rest, ds = c :: rest ∧ c ≠ sign := by
  obtain ⟨c, rest, rfl⟩ := List.exists_cons_of_ne_nil h.ne_nil
  refine ⟨c, rest, rfl, ?_⟩
  rintro rfl
  rw [h.isDigit c List.mem_cons_self] at hsign
  cases hsign

theorem IsDigits.takeSign_eq (h : IsDigits ds) : takeSign ds = (false, ds) := by
  obtain ⟨c, rest, rfl⟩ := List.exists_cons_of_ne_nil h.ne_nil
  exact takeSign_of_isDigit (h.isDigit c List.mem_cons_self) rest

/-- What follows the sign decides whether a text writes an integer. -/
theorem writes_iff :
    Writes text n ↔ IsDigits (takeSign text).2 ∧
      n = signed (takeSign text).1 (digitsValue (takeSign text).2) := by
  constructor
  · rintro (h | h | h)
    · rw [h.takeSign_eq]
      exact ⟨h, rfl⟩
    · exact ⟨h, rfl⟩
    · exact ⟨h, rfl⟩
  · rintro ⟨h, rfl⟩
    unfold takeSign at h ⊢
    split at h
    · exact .minus h
    · exact .plus h
    · exact .unsigned h

/-- An integer of 64 bits is read from the texts that write it. -/
theorem readInt?_eq_some_iff :
    readInt? text = some n ↔ Writes text n ∧ minInt64 ≤ n ∧ n ≤ maxInt64 := by
  simp only [readInt?, writes_iff, ← isDigits_iff]
  split_ifs with hdigits hrange
  · rw [Option.some.injEq]
    constructor
    · rintro rfl
      exact ⟨⟨hdigits, rfl⟩, hrange⟩
    · exact fun h => h.1.2.symm
  · refine ⟨by rintro ⟨⟩, ?_⟩
    rintro ⟨⟨-, rfl⟩, h⟩
    exact absurd h hrange
  · exact ⟨by rintro ⟨⟩, fun h => absurd h.1.1 hdigits⟩

end

end Decimal

/-! ### The cast -/

namespace CaptureType

variable {ds text number : List Char} {n : ℤ}

theorem dropSign_cons (sign : Char) (rest : List Char) : dropSign sign (sign :: rest) = rest :=
  if_pos rfl

theorem dropSign_of_isDigits (h : IsDigits ds) {sign : Char} (hsign : sign.isDigit = false) :
    dropSign sign ds = ds := by
  obtain ⟨c, rest, rfl, hc⟩ := h.exists_cons hsign
  exact if_neg hc

/-- What is left was there before, alone or behind the sign. -/
theorem eq_or_eq_cons_of_dropSign {sign : Char} (h : dropSign sign text = number) :
    text = number ∨ text = sign :: number := by
  cases text with
  | nil => exact .inl h
  | cons c rest =>
    rw [dropSign] at h
    split_ifs at h with hc
    · exact .inr (hc ▸ h ▸ rfl)
    · exact .inl h

/-- Both checks together leave an unsigned number or one with a minus. -/
theorem readInt?_eq_some_iff :
    readInt? text = some n ↔
      (Writes text n ∨ ∃ ds, text = '+' :: '-' :: ds ∧ Writes ('-' :: ds) n) ∧
        minInt64 ≤ n ∧ n ≤ maxInt64 := by
  have hplus : '+'.isDigit = false := by decide
  have hminus : '-'.isDigit = false := by decide
  have hread : readInt? text = some n ↔ IsDigits (dropSign '-' (dropSign '+' text)) ∧
      Writes (dropSign '+' text) n ∧ minInt64 ≤ n ∧ n ≤ maxInt64 := by
    simp only [readInt?, ← isDigits_iff, ← Decimal.readInt?_eq_some_iff]
    split_ifs with h
    · exact (and_iff_right h).symm
    · exact ⟨by rintro ⟨⟩, fun h' => absurd h'.1 h⟩
  rw [hread, ← and_assoc]
  refine and_congr_left fun _ => ⟨?_, ?_⟩
  · rintro ⟨hdigits, hwrites⟩
    generalize hnumber : dropSign '+' text = number at hdigits hwrites
    cases hwrites with
    | unsigned h =>
      rcases eq_or_eq_cons_of_dropSign hnumber with rfl | rfl
      · exact .inl (.unsigned h)
      · exact .inl (.plus h)
    | plus h =>
      -- A second plus is left over, and is no digit.
      cases hplus.symm.trans (hdigits.isDigit '+' List.mem_cons_self)
    | minus h =>
      rcases eq_or_eq_cons_of_dropSign hnumber with rfl | rfl
      · exact .inl (.minus h)
      · exact .inr ⟨_, rfl, .minus h⟩
  · rintro (h | ⟨ds, rfl, h⟩)
    · cases h with
      | unsigned h =>
        rw [dropSign_of_isDigits h hplus, dropSign_of_isDigits h hminus]
        exact ⟨h, .unsigned h⟩
      | plus h =>
        rw [dropSign_cons, dropSign_of_isDigits h hminus]
        exact ⟨h, .unsigned h⟩
      | minus h => exact ⟨h, .minus h⟩
    · cases h with
      | unsigned h => cases hminus.symm.trans (h.isDigit '-' List.mem_cons_self)
      | minus h => exact ⟨h, .minus h⟩

/-- The cast to an integer takes the texts that write an integer of 64 bits between blanks, and
those with a plus in front of the minus, which is read as if it were not there. It gives what the
text writes. -/
theorem cast?_int_eq_some_iff (text : List Char) (a : Arg) :
    int.cast? text = some a ↔
      ∃ n, a = .int n ∧
        (Writes (trim text) n ∨ ∃ ds, trim text = '+' :: '-' :: ds ∧ Writes ('-' :: ds) n) ∧
        minInt64 ≤ n ∧ n ≤ maxInt64 := by
  simp only [cast?, Option.map_eq_some_iff, readInt?_eq_some_iff]
  exact exists_congr fun n => and_comm.trans (and_congr_left fun _ => eq_comm)

/-- A plus and a minus in front of a digit write no integer, but the cast takes them. -/
theorem cast?_int_plus_minus :
    int.cast? "+-5".toList = some (.int (-5)) ∧ ∀ n, ¬ Writes (trim "+-5".toList) n := by
  refine ⟨by rfl, fun n h => ?_⟩
  have hsign : (takeSign (trim "+-5".toList)).2 = ['-', '5'] := by decide
  have hdigits := (writes_iff.mp h).1
  rw [hsign] at hdigits
  exact absurd (hdigits.isDigit '-' List.mem_cons_self) (by decide)

end CaptureType

end Raceway
