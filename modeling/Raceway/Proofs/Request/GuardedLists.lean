import Mathlib
import Raceway.Proofs.Request.Casting
import Raceway.Proofs.Results
/-!
# Lists of integers in 64-bit words

The integers of a list are counted here in words of 64 bits with sign. A word goes up by one only
while it is below the end of its range, and each sum is guarded: a computation stops before one that
64 bits do not hold. The distance between the ends of a range is not guarded, as its subtraction
tells by itself when there is no such word. No guard is ever met, and the lists are those that are
counted in integers without bounds.

## Main definitions

* `Raceway.CaptureType.Halt`: why a computation stops.
* `Raceway.CaptureType.guardedInts`: reading a list of integers.

## Main results

* `Raceway.CaptureType.ascend_eq`: counting through a range.
* `Raceway.CaptureType.guardedInts_eq`: the guarded reading gives what reading gives.
-/

namespace Raceway.CaptureType

open Text Decimal

variable {α β : Type} {a b c : Int64} {low high item text : List Char}

/-! ### Words -/

/-- Why a computation in words stops. -/
inductive Halt where
  /-- The text is turned down. -/
  | refused
  /-- A sum that 64 bits do not hold. -/
  | overflow (a b : Int64)
deriving DecidableEq

/-- The sum of two words, unless it overflows. -/
def plus (a b : Int64) : Except Halt Int64 :=
  if (a + b).toInt = a.toInt + b.toInt then return a + b else throw (.overflow a b)

/-- The difference of two words, if it is a word. -/
def minus? (a b : Int64) : Option Int64 :=
  if (a - b).toInt = a.toInt - b.toInt then some (a - b) else none

/-- What is there, or the refusal. -/
def orRefused : Option α → Except Halt α
  | some a => return a
  | none => throw .refused

theorem orRefused_map (f : α → β) (x : Option α) :
    orRefused (x.map f) = (orRefused x).map f := by
  cases x <;> rfl

theorem orRefused_bind (x : Option α) (f : α → Option β) :
    orRefused (x >>= f) = orRefused x >>= fun a => orRefused (f a) := by
  cases x <;> rfl

/-- A traversal is refused where a step is. -/
theorem orRefused_mapM (f : α → Option β) (l : List α) :
    orRefused (l.mapM f) = l.mapM fun a => orRefused (f a) := by
  induction l with
  | nil => rfl
  | cons a l ih =>
    simp only [List.mapM_cons, orRefused_bind, ih]
    rfl

theorem mapM_map {γ : Type} (f : α → Except Halt β) (g : β → γ) (l : List α) :
    l.mapM (fun a => (f a).map g) = (l.mapM f).map (·.map g) := by
  induction l with
  | nil => rfl
  | cons a l ih =>
    rw [List.mapM_cons, List.mapM_cons, ih]
    cases f a with
    | error e => rfl
    | ok b => cases l.mapM f <;> rfl

theorem toInt_of_plus (h : plus a b = .ok c) : c.toInt = a.toInt + b.toInt := by
  rw [plus] at h
  split_ifs at h with hsum
  obtain rfl := Except.ok.inj h
  exact hsum

/-- Below another word, a word can go up by one. -/
theorem plus_one_eq (h : a < b) : plus a 1 = .ok (a + 1) := by
  refine if_pos ?_
  have hmax := b.toInt_lt
  have hmin := a.le_toInt
  rw [Int64.lt_iff_toInt_lt] at h
  rw [Int64.toInt_add, Int64.toInt_one]
  exact Int.bmod_eq_of_le (by omega) (by omega)

theorem toInt_max (a b : Int64) : (max a b).toInt = max a.toInt b.toInt := by
  change (if a ≤ b then b else a).toInt = _
  simp only [Int64.le_iff_toInt_le]
  split_ifs with h
  · exact (max_eq_right h).symm
  · exact (max_eq_left (le_of_not_ge h)).symm

theorem toInt_min (a b : Int64) : (min a b).toInt = min a.toInt b.toInt := by
  change (if a ≤ b then a else b).toInt = _
  simp only [Int64.le_iff_toInt_le]
  split_ifs with h
  · exact (min_eq_left h).symm
  · exact (min_eq_right (le_of_not_ge h)).symm

/-- The difference is there when it is a word. -/
theorem minus?_eq_some_iff : minus? a b = some c ↔ c.toInt = a.toInt - b.toInt := by
  rw [minus?]
  constructor
  · intro h
    split_ifs at h with hdiff
    exact Option.some.inj h ▸ hdiff
  · intro h
    have hmin := c.le_toInt
    have hmax := c.toInt_lt
    have hdiff : (a - b).toInt = a.toInt - b.toInt := by
      rw [Int64.toInt_sub]
      exact Int.bmod_eq_of_le (by omega) (by omega)
    rw [if_pos hdiff, Option.some.injEq, ← Int64.toInt_inj, hdiff, h]

/-- The difference of a greater and a smaller word is missing only when it is beyond the words. -/
theorem lt_of_minus?_eq_none (h : minus? a b = none) (hle : b.toInt ≤ a.toInt) :
    maxInt64 < a.toInt - b.toInt := by
  by_contra hlt
  rw [maxInt64] at hlt
  have hdiff : (Int64.ofInt (a.toInt - b.toInt)).toInt = a.toInt - b.toInt :=
    Int64.toInt_ofInt_of_le (by omega) (by omega)
  rw [minus?_eq_some_iff.mpr hdiff] at h
  cases h

/-! ### Ranges -/

/-- The words from one up to another. -/
def ascend (a b : Int64) : Except Halt (List Int64) :=
  if a < b then
    match _hnext : plus a 1 with
    | .ok next => (ascend next b).map (a :: ·)
    | .error e => .error e
  else return [a]
termination_by (b.toInt - a.toInt).toNat
decreasing_by
  rename_i hlt
  have hnext := toInt_of_plus _hnext
  rw [Int64.toInt_one] at hnext
  rw [Int64.lt_iff_toInt_lt] at hlt
  omega

theorem ascend_of_lt (h : a < b) : ascend a b = (ascend (a + 1) b).map (a :: ·) := by
  rw [ascend, if_pos h]
  split
  · rename_i next hnext
    rw [plus_one_eq h] at hnext
    rw [Except.ok.inj hnext]
  · rename_i e he
    rw [plus_one_eq h] at he
    cases he

theorem ascend_of_not_lt (h : ¬ a < b) : ascend a b = .ok [a] := by
  rw [ascend, if_neg h]
  rfl

theorem intRange_min_max (m n : ℤ) : intRange (min m n) (max m n) = intRange m n := by
  rw [intRange, max_eq_right min_le_max, min_eq_left min_le_max, intRange]

theorem intRange_self (n : ℤ) : intRange n n = [n] := by
  simp [intRange]

theorem intRange_of_lt {m n : ℤ} (h : m < n) : intRange m n = m :: intRange (m + 1) n := by
  have hlength : (n - m).toNat + 1 = ((n - (m + 1)).toNat + 1) + 1 := by omega
  rw [intRange, intRange, max_eq_right h.le, min_eq_left h.le, max_eq_right h, min_eq_left h,
    hlength, List.range_succ_eq_map (n := (n - (m + 1)).toNat + 1), List.map_cons, List.map_map]
  refine congrArg₂ _ (by simp) (List.map_congr_left fun i _ => ?_)
  simp only [Function.comp_apply]
  push_cast
  ring

/-- Counting from one word up to another meets no guard, and gives the range. -/
theorem ascend_eq (h : a ≤ b) :
    (ascend a b).map (·.map Int64.toInt) = .ok (intRange a.toInt b.toInt) := by
  rw [Int64.le_iff_toInt_le] at h
  obtain ⟨n, hn⟩ := Int.eq_ofNat_of_zero_le (sub_nonneg_of_le h)
  induction n generalizing a with
  | zero =>
    have hab : a.toInt = b.toInt := by omega
    rw [ascend_of_not_lt (by rw [Int64.lt_iff_toInt_lt]; omega), ← hab, intRange_self]
    rfl
  | succ n ih =>
    have hlt : a < b := Int64.lt_iff_toInt_lt.mpr (by omega)
    have hnext := toInt_of_plus (plus_one_eq hlt)
    rw [Int64.toInt_one] at hnext
    have hrest := ih (a := a + 1) (by omega) (by omega)
    rw [hnext] at hrest
    rw [ascend_of_lt hlt, intRange_of_lt (Int64.lt_iff_toInt_lt.mp hlt)]
    obtain ⟨ns, hns, hmap⟩ := map_eq_ok hrest
    rw [hns, ← hmap]
    rfl

/-! ### Reading -/

/-- Read an integer as a word. -/
def guardedInt (text : List Char) : Except Halt Int64 :=
  orRefused ((readInt? text).map Int64.ofInt)

/-- The integers of a range, unless its ends are too far apart. -/
def guardedRange (low high : List Char) : Except Halt (List Int64) := do
  let a ← guardedInt low
  let b ← guardedInt high
  match minus? (max a b) (min a b) with
  | some span => if 10000 < span then throw .refused else ascend (min a b) (max a b)
  | none => throw .refused

/-- The integers of an item of a list. -/
def guardedItems (item : List Char) : Except Halt (List Int64) :=
  match item.span (· != '-') with
  | (c :: low, '-' :: high) => guardedRange (c :: low) high
  | _ => (guardedInt item).map fun n => [n]

/-- The integers of a list, which has at least one. -/
def guardedInts (text : List Char) : Except Halt (List Int64) := do
  let parts ← (listWords text).mapM guardedItems
  if parts.flatten = [] then throw .refused else return parts.flatten

/-- An integer that is read is a word. -/
theorem guardedInt_cases (text : List Char) :
    (readInt? text = none ∧ guardedInt text = .error .refused) ∨
      ∃ a : Int64, readInt? text = some a.toInt ∧ guardedInt text = .ok a := by
  cases h : readInt? text with
  | none => exact .inl ⟨rfl, by rw [guardedInt, h]; rfl⟩
  | some n =>
    obtain ⟨-, hmin, hmax⟩ := readInt?_eq_some_iff.mp h
    rw [minInt64] at hmin
    rw [maxInt64] at hmax
    have hword : (Int64.ofInt n).toInt = n := Int64.toInt_ofInt_of_le (by omega) (by omega)
    exact .inr ⟨Int64.ofInt n, by rw [hword], by rw [guardedInt, h]; rfl⟩

theorem guardedRange_eq (low high : List Char) :
    (guardedRange low high).map (·.map Int64.toInt) = orRefused (rangeItems? low high) := by
  rcases guardedInt_cases low with ⟨hlow, hlow'⟩ | ⟨a, hlow, hlow'⟩
  · rw [guardedRange, rangeItems?, hlow, hlow']
    rfl
  rcases guardedInt_cases high with ⟨hhigh, hhigh'⟩ | ⟨b, hhigh, hhigh'⟩
  · rw [guardedRange, rangeItems?, hlow, hlow', hhigh, hhigh']
    rfl
  have hle : (min a b).toInt ≤ (max a b).toInt := by
    rw [toInt_min, toInt_max]
    exact min_le_max
  simp only [guardedRange, rangeItems?, hlow, hlow', hhigh, hhigh', ok_bind, Option.bind_eq_bind,
    Option.bind_some, ← toInt_min, ← toInt_max, maxSpan]
  cases hspan : minus? (max a b) (min a b) with
  | none =>
    have hwide := lt_of_minus?_eq_none hspan hle
    rw [maxInt64] at hwide
    rw [if_pos (by omega)]
    rfl
  | some span =>
    have hten : (10000 : Int64).toInt = 10000 := by decide
    simp only [← minus?_eq_some_iff.mp hspan, gt_iff_lt, Int64.lt_iff_toInt_lt, hten]
    split_ifs
    · rfl
    · rw [ascend_eq (Int64.le_iff_toInt_le.mpr hle), toInt_min, toInt_max, intRange_min_max]
      rfl

/-- An item that is no range is read as one integer. -/
theorem items?_of_span_ne (h : ∀ c low high, item.span (· != '-') ≠ (c :: low, '-' :: high)) :
    items? item = (readInt? item).map fun n => [n] := by
  rw [items?]
  split
  · rename_i c low high hcut
    exact absurd hcut (h c low high)
  · rfl

/-- Reading an item in words gives the integers of the item. -/
theorem guardedItems_eq (item : List Char) :
    (guardedItems item).map (·.map Int64.toInt) = orRefused (items? item) := by
  rw [guardedItems]
  split
  · rename_i c low high hcut
    rw [items?, hcut]
    exact guardedRange_eq (c :: low) high
  · rename_i hsingle
    rw [items?_of_span_ne hsingle]
    rcases guardedInt_cases item with ⟨h, h'⟩ | ⟨a, h, h'⟩ <;> rw [h, h'] <;> rfl

/-- Reading in words gives the integers of the list. -/
theorem guardedInts_eq (text : List Char) :
    (guardedInts text).map (·.map Int64.toInt) = orRefused (readInts? text) := by
  have hparts : (listWords text).mapM (fun item => orRefused (items? item)) =
      ((listWords text).mapM guardedItems).map (·.map (·.map Int64.toInt)) := by
    simp only [← guardedItems_eq, mapM_map]
  rw [guardedInts, readInts?, orRefused_bind, orRefused_mapM, hparts]
  cases (listWords text).mapM guardedItems with
  | error e => rfl
  | ok parts =>
    have hflatten : (parts.map (·.map Int64.toInt)).flatten = parts.flatten.map Int64.toInt :=
      List.map_flatten.symm
    simp only [ok_bind, Except.map, hflatten, List.map_eq_nil_iff]
    split_ifs <;> rfl

/-- No guard is met on any text. -/
theorem guardedInts_ne_overflow (text : List Char) (a b : Int64) :
    guardedInts text ≠ .error (.overflow a b) := by
  intro h
  have hread := guardedInts_eq text
  rw [h] at hread
  cases hints : readInts? text <;> rw [hints] at hread <;> cases hread

end Raceway.CaptureType
