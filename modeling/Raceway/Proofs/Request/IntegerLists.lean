import Mathlib
import Raceway.Proofs.Request.GuardedLists
import Raceway.Proofs.Text.Blank
import Raceway.Proofs.Text.Words
/-!
# Lists of integers

A list is written as items with separators between them. An item is an integer of 64 bits, or a
range of them with a hyphen between its ends. A separator has at least one comma or blank, and the
word `and` stands in it between two of these. The cast gives the integers of the items one after the
other, and turns a list down when the ends of one of its ranges are too far apart.

## Main definitions

* `Raceway.CaptureType.Separator` and `Raceway.CaptureType.Joined`: words with separators between
  them.
* `Raceway.CaptureType.ItemText` and `Raceway.CaptureType.WideRange`: the items.

## Main results

* `Raceway.CaptureType.cast?_intList`: what the cast gives.
-/

namespace Raceway.CaptureType

open Text Decimal

/-! ### Words and separators -/

/-- The character stands between the words of a list. -/
def isGap (c : Char) : Bool :=
  c == ',' || isBlank c

/-- A word of a list. -/
structure IsListWord (w : List Char) : Prop where
  ne_nil : w ≠ []
  isGap : ∀ c ∈ w, isGap c = false

/-- Commas and blanks, at least one, and the word `and` in any letter case between two of them. -/
inductive Separator : List Char → Prop
  | gap {c : Char} (h : isGap c = true) : Separator [c]
  | cons {c : Char} {s : List Char} (h : isGap c = true) (hs : Separator s) : Separator (c :: s)
  | word {c : Char} {w s : List Char} (h : isGap c = true) (hw : isWord "and" w = true)
    (hs : Separator s) : Separator (c :: (w ++ s))

/-- The text has the words, with separators between them. -/
inductive Joined : List Char → List (List Char) → Prop
  | last {w : List Char} (h : IsListWord w) : Joined w [w]
  | cons {w s t : List Char} {ws : List (List Char)} (h : IsListWord w) (hs : Separator s)
    (ht : Joined t ws) : Joined (w ++ (s ++ t)) (w :: ws)

section

variable {c : Char} {s t w : List Char} {ws : List (List Char)}

theorem isBlank_commaToSpace (c : Char) : isBlank (commaToSpace c) = isGap c := by
  rw [commaToSpace, isGap]
  split_ifs with h
  · rw [h]
    decide
  · rw [beq_false_of_ne h, Bool.false_or]

theorem IsListWord.isBlank (h : IsListWord w) : ∀ c ∈ w, isBlank c = false :=
  fun c hc => (Bool.or_eq_false_iff.mp (h.isGap c hc)).2

theorem IsListWord.map_commaToSpace (h : IsListWord w) : w.map commaToSpace = w := by
  refine (List.map_congr_left fun c hc => if_neg ?_).trans (List.map_id w)
  rintro rfl
  exact Bool.noConfusion (h.isGap ',' hc)

/-- A letter or digit is not blank. -/
theorem isBlank_of_isAlphanum (h : c.isAlphanum = true) : Text.isBlank c = false := by
  simp only [Char.isAlphanum, Char.isAlpha, Char.isUpper, Char.isLower, Char.isDigit,
    Bool.or_eq_true, Bool.and_eq_true, decide_eq_true_eq, UInt32.le_iff_toNat_le, ge_iff_le,
    Char.reduceVal, UInt32.reduceToNat, Char.toNat_val] at h
  simp only [Text.isBlank, blankRanges, List.any_eq_false]
  intro range hrange
  fin_cases hrange <;> simp <;> omega

/-- A letter or digit stands in a word. -/
theorem isGap_of_isAlphanum (h : c.isAlphanum = true) : isGap c = false := by
  have hcomma : c ≠ ',' := by
    rintro rfl
    exact Bool.noConfusion h
  rw [isGap, beq_false_of_ne hcomma, Bool.false_or, isBlank_of_isAlphanum h]

/-- The word `and` has letters only. -/
theorem IsListWord.of_isWord (h : isWord "and" w = true) : IsListWord w := by
  have hmap : w.map Char.toLower = "and".toList := beq_iff_eq.mp h
  refine ⟨?_, fun c hc => ?_⟩
  · rintro rfl
    cases hmap
  · by_cases halpha : c.isAlpha
    · exact isGap_of_isAlphanum (Bool.or_eq_true_iff.mpr (.inl halpha))
    · -- A character that is no letter has no other case, so it does not occur.
      have hmem : c ∈ "and".toList := by
        rw [← hmap, ← toLower_of_not_isAlpha (Bool.eq_false_of_not_eq_true halpha)]
        exact List.mem_map_of_mem hc
      have hletters : ∀ d ∈ "and".toList, d.isAlpha = true := by simp
      exact absurd (hletters c hmem) halpha

/-- Gaps are passed over. -/
theorem listWords_cons (h : isGap c = true) (s : List Char) : listWords (c :: s) = listWords s := by
  rw [listWords, List.map_cons, words_cons_of_blank ((isBlank_commaToSpace c).trans h), listWords]

/-- A word goes on up to the next gap. It is an item unless it is the word `and`. -/
theorem listWords_append (hw : IsListWord w) (hs : ∀ c, s.head? = some c → isGap c = true) :
    listWords (w ++ s) = [w].filter (fun w => !isWord "and" w) ++ listWords s := by
  have hblank : ∀ c, (s.map commaToSpace).head? = some c → Text.isBlank c = true := by
    intro c hc
    rw [List.head?_map, Option.map_eq_some_iff] at hc
    obtain ⟨d, hd, rfl⟩ := hc
    exact (isBlank_commaToSpace d).trans (hs d hd)
  rw [listWords, List.map_append, hw.map_commaToSpace, words_append hw.ne_nil hw.isBlank hblank,
    ← List.singleton_append, List.filter_append, listWords]

theorem Separator.head (h : Separator s) (t : List Char) :
    ∀ c, (s ++ t).head? = some c → isGap c = true := by
  rintro c hc
  cases h with
  | gap h | cons h _ | word h _ _ => exact Option.some.inj hc ▸ h

/-- There is no item in a separator. -/
theorem Separator.listWords_append (h : Separator s) (t : List Char) :
    listWords (s ++ t) = listWords t := by
  induction h with
  | gap h => exact listWords_cons h t
  | cons h _ ih => exact (listWords_cons h _).trans ih
  | @word c w s h hw hs ih =>
    rw [List.cons_append, List.append_assoc, listWords_cons h,
      CaptureType.listWords_append (.of_isWord hw) (hs.head t), ih]
    simp [hw]

/-- The items are the words, without those that are the word `and`. -/
theorem Joined.listWords_eq (h : Joined t ws) :
    listWords t = ws.filter fun w => !isWord "and" w := by
  induction h with
  | @last w h =>
    have hlast := listWords_append (s := []) h (by rintro _ ⟨⟩)
    rwa [List.append_nil, show listWords [] = [] from rfl, List.append_nil] at hlast
  | @cons w s t ws h hs _ ih =>
    rw [listWords_append h (hs.head t), hs.listWords_append, ih, ← List.filter_append,
      List.singleton_append]

theorem Joined.ne_nil (h : Joined t ws) : t ≠ [] := by
  cases h with
  | last h => exact h.ne_nil
  | cons h _ _ => exact List.append_ne_nil_of_left_ne_nil h.ne_nil _

theorem Joined.head (h : Joined t ws) : ∀ c, t.head? = some c → Text.isBlank c = false := by
  cases h with
  | last h => exact fun c hc => h.isBlank c (List.mem_of_mem_head? hc)
  | cons h _ _ =>
    intro c hc
    rw [List.head?_append_of_ne_nil _ h.ne_nil] at hc
    exact h.isBlank c (List.mem_of_mem_head? hc)

theorem Joined.getLast (h : Joined t ws) : ∀ c, t.getLast? = some c → Text.isBlank c = false := by
  induction h with
  | last h => exact fun c hc => h.isBlank c (List.mem_of_mem_getLast? hc)
  | cons _ _ ht ih =>
    intro c hc
    rw [← List.append_assoc, List.getLast?_append_of_ne_nil _ ht.ne_nil] at hc
    exact ih c hc

/-- Words stand at both ends, so nothing is trimmed. -/
theorem Joined.trim_eq (h : Joined t ws) : trim t = t := by
  rw [trim, trimStart_of_head t h.head, trimEnd_of_last h.getLast]

end

/-! ### Items -/

/-- The integers from the smaller of two to the greater, in ascending order. -/
def ascending (a b : ℤ) : List ℤ :=
  (Finset.uIcc a b).sort (· ≤ ·)

/-- The integer is one of 64 bits, and is written in decimal. -/
structure Writes64 (text : List Char) (n : ℤ) : Prop where
  writes : Writes text n
  min_le : minInt64 ≤ n
  le_max : n ≤ maxInt64

/-- The item stands for the integers. What is in front of the hyphen of a range has no minus, as an
item that starts with one is read as one integer. -/
inductive ItemText : List Char → List ℤ → Prop
  | one {text : List Char} {n : ℤ} (h : Writes64 text n) : ItemText text [n]
  | range {low high : List Char} {a b : ℤ} (hlow : Writes64 low a) (hsign : low.head? ≠ some '-')
    (hhigh : Writes64 high b) (hspan : |a - b| ≤ 10000) :
    ItemText (low ++ '-' :: high) (ascending a b)

/-- The item is a range whose ends are too far apart. -/
inductive WideRange : List Char → Prop
  | intro {low high : List Char} {a b : ℤ} (hlow : Writes64 low a) (hhigh : Writes64 high b)
    (hspan : 10000 < |a - b|) : WideRange (low ++ '-' :: high)

section

variable {low high text w : List Char} {a b n : ℤ} {ns : List ℤ}

theorem mem_intRange : n ∈ intRange a b ↔ min a b ≤ n ∧ n ≤ max a b := by
  rw [intRange, List.mem_map]
  constructor
  · rintro ⟨i, hi, rfl⟩
    rw [List.mem_range] at hi
    omega
  · rintro ⟨hmin, hmax⟩
    refine ⟨(n - min a b).toNat, List.mem_range.mpr ?_, ?_⟩ <;> omega

theorem pairwise_lt_intRange (a b : ℤ) : (intRange a b).Pairwise (· < ·) := by
  rw [intRange, List.pairwise_map]
  refine List.pairwise_lt_range.imp fun h => ?_
  omega

theorem intRange_eq_ascending (a b : ℤ) : intRange a b = ascending a b := by
  have hset : (intRange a b).toFinset = Finset.uIcc a b := by
    ext n
    rw [List.mem_toFinset, mem_intRange, Finset.uIcc, Finset.mem_Icc]
  have hnodup : (intRange a b).Nodup := (pairwise_lt_intRange a b).imp ne_of_lt
  rw [ascending, ← hset]
  exact ((List.toFinset_sort (· ≤ ·) hnodup).mpr ((pairwise_lt_intRange a b).imp le_of_lt)).symm

theorem Writes64.readInt?_eq (h : Writes64 text n) : readInt? text = some n :=
  readInt?_eq_some_iff.mpr ⟨.inl h.writes, h.min_le, h.le_max⟩

/-- What writes an integer does not start with a letter. -/
theorem exists_cons_of_writes (h : Writes text n) :
    ∃ c rest, text = c :: rest ∧ c.isAlpha = false := by
  cases h with
  | unsigned h =>
    obtain ⟨c, rest, rfl⟩ := List.exists_cons_of_ne_nil h.ne_nil
    exact ⟨c, rest, rfl, isAlpha_of_isDigit (h.isDigit c List.mem_cons_self)⟩
  | plus h | minus h => exact ⟨_, _, rfl, by decide⟩

theorem isGap_of_isDigits {ds : List Char} (h : IsDigits ds) : ∀ c ∈ ds, isGap c = false :=
  fun c hc => isGap_of_isAlphanum (Bool.or_eq_true_iff.mpr (.inr (h.isDigit c hc)))

/-- What writes an integer is a word of a list. -/
theorem isListWord_of_writes (h : Writes text n) : IsListWord text := by
  cases h with
  | unsigned h => exact ⟨h.ne_nil, isGap_of_isDigits h⟩
  | plus h | minus h =>
    exact ⟨List.cons_ne_nil _ _, List.forall_mem_cons.mpr ⟨by decide, isGap_of_isDigits h⟩⟩

/-- There is no hyphen among digits. -/
theorem not_mem_of_isDigits {ds : List Char} (h : IsDigits ds) : '-' ∉ ds :=
  fun hmem => Bool.noConfusion (h.isDigit '-' hmem)

/-- What writes an integer has no hyphen but for a minus in front. -/
theorem not_mem_of_writes (h : Writes text n) (hsign : text.head? ≠ some '-') : '-' ∉ text := by
  cases h with
  | unsigned h => exact not_mem_of_isDigits h
  | plus h => simpa using not_mem_of_isDigits h
  | minus _ => exact absurd rfl hsign

theorem span_of_not_mem (h : '-' ∉ low) (high : List Char) :
    (low ++ '-' :: high).span (· != '-') = (low, '-' :: high) := by
  have hlow : ∀ c ∈ low, (c != '-') = true := fun c hc => bne_iff_ne.mpr (ne_of_mem_of_not_mem hc h)
  rw [List.span_eq_takeWhile_dropWhile, List.takeWhile_append_of_pos hlow,
    List.dropWhile_append_of_pos hlow]
  simp

/-- An item in which a hyphen stands only in front is read as one integer. -/
theorem items?_of_single (h : '-' ∉ text ∨ text.head? = some '-') :
    items? text = (readInt? text).map fun n => [n] := by
  refine items?_of_span_ne fun c low high hcut => ?_
  rw [List.span_eq_takeWhile_dropWhile, Prod.mk.injEq] at hcut
  rcases h with h | h
  · have hmem : '-' ∈ text.dropWhile (· != '-') := hcut.2 ▸ List.mem_cons_self
    exact h ((List.dropWhile_sublist _).subset hmem)
  · obtain ⟨rest, rfl⟩ := List.head?_eq_some_iff.mp h
    cases hcut.1

theorem Writes64.items?_eq (h : Writes64 text n) : items? text = some [n] := by
  rw [items?_of_single, h.readInt?_eq, Option.map_some]
  by_cases hsign : text.head? = some '-'
  · exact .inr hsign
  · exact .inl (not_mem_of_writes h.writes hsign)

theorem items?_range (hlow : Writes64 low a) (hsign : low.head? ≠ some '-')
    (hhigh : Writes64 high b) :
    items? (low ++ '-' :: high) = if 10000 < |a - b| then none else some (ascending a b) := by
  obtain ⟨c, rest, rfl, -⟩ := exists_cons_of_writes hlow.writes
  rw [items?, span_of_not_mem (not_mem_of_writes hlow.writes hsign)]
  change rangeItems? (c :: rest) high = _
  rw [rangeItems?, hlow.readInt?_eq, hhigh.readInt?_eq, ← intRange_eq_ascending,
    ← max_sub_min_eq_abs']
  rfl

theorem ItemText.items?_eq (h : ItemText text ns) : items? text = some ns := by
  cases h with
  | one h => exact h.items?_eq
  | range hlow hsign hhigh hspan =>
    rw [items?_range hlow hsign hhigh, if_neg (not_lt_of_ge hspan)]

/-- A minus in front and a hyphen behind write no integer. -/
theorem readInt?_minus_range (low high : List Char) :
    readInt? ('-' :: (low ++ '-' :: high)) = none := by
  refine Option.eq_none_iff_forall_ne_some.mpr fun n h => ?_
  rcases (readInt?_eq_some_iff.mp h).1 with hwrites | ⟨ds, htext, -⟩
  · cases hwrites with
    | unsigned hdigits => exact not_mem_of_isDigits hdigits List.mem_cons_self
    | minus hdigits => exact not_mem_of_isDigits hdigits (by simp)
  · cases htext

theorem WideRange.items?_eq (h : WideRange text) : items? text = none := by
  obtain @⟨low, high, a, b, hlow, hhigh, hspan⟩ := h
  by_cases hsign : low.head? = some '-'
  · obtain ⟨rest, rfl⟩ := List.head?_eq_some_iff.mp hsign
    rw [items?_of_single (.inr rfl), List.cons_append, readInt?_minus_range, Option.map_none]
  · rw [items?_range hlow hsign hhigh, if_pos hspan]

/-- No item is the word `and`. -/
theorem ItemText.isWord_eq (h : ItemText text ns) : isWord "and" text = false := by
  have hand : "and".toList.head?.all Char.isAlpha = true := by simp
  cases h with
  | one h =>
    obtain ⟨c, rest, rfl, hc⟩ := exists_cons_of_writes h.writes
    exact isWord_of_not_isAlpha hand hc rest
  | range hlow _ _ _ =>
    obtain ⟨c, rest, rfl, hc⟩ := exists_cons_of_writes hlow.writes
    exact isWord_of_not_isAlpha hand hc _

theorem WideRange.isWord_eq (h : WideRange text) : isWord "and" text = false := by
  obtain ⟨hlow, -, -⟩ := h
  obtain ⟨c, rest, rfl, hc⟩ := exists_cons_of_writes hlow.writes
  exact isWord_of_not_isAlpha (by simp) hc _

theorem isListWord_range (hlow : Writes low a) (hhigh : Writes high b) :
    IsListWord (low ++ '-' :: high) := by
  refine ⟨List.append_ne_nil_of_left_ne_nil (isListWord_of_writes hlow).ne_nil _, ?_⟩
  refine List.forall_mem_append.mpr ⟨(isListWord_of_writes hlow).isGap, ?_⟩
  exact List.forall_mem_cons.mpr ⟨by decide, (isListWord_of_writes hhigh).isGap⟩

/-- An item is a word of a list. -/
theorem ItemText.isListWord (h : ItemText text ns) : IsListWord text := by
  cases h with
  | one h => exact isListWord_of_writes h.writes
  | range hlow _ hhigh _ => exact isListWord_range hlow.writes hhigh.writes

theorem ItemText.ne_nil (h : ItemText text ns) : ns ≠ [] := by
  cases h with
  | one _ => exact List.cons_ne_nil _ _
  | @range _ _ a b =>
    rw [← intRange_eq_ascending]
    exact List.ne_nil_of_mem (mem_intRange.mpr ⟨le_rfl, min_le_max⟩)

/-! ### Lists -/

theorem listWords_eq_of_forall {items : List (List Char)} (h : Joined text items)
    (hand : ∀ item ∈ items, isWord "and" item = false) : listWords text = items := by
  rw [h.listWords_eq, List.filter_eq_self]
  exact fun item hitem => by rw [hand item hitem]; rfl

theorem isWord_of_items {items : List (List Char)} {lists : List (List ℤ)}
    (h : List.Forall₂ ItemText items lists) : ∀ item ∈ items, isWord "and" item = false := by
  induction h with
  | nil => exact List.forall_mem_nil _
  | cons hitem _ ih => exact List.forall_mem_cons.mpr ⟨hitem.isWord_eq, ih⟩

/-- Items are read one after the other. -/
theorem mapM_items? {items : List (List Char)} {lists : List (List ℤ)}
    (h : List.Forall₂ ItemText items lists) : items.mapM items? = some lists := by
  induction h with
  | nil => rfl
  | cons hitem _ ih =>
    rw [List.mapM_cons, hitem.items?_eq, ih]
    rfl

/-- One item that is turned down is enough. -/
theorem mapM_eq_none {α β : Type} {f : α → Option β} {l : List α} {a : α} (ha : a ∈ l)
    (h : f a = none) : l.mapM f = none := by
  induction l with
  | nil => cases ha
  | cons b l ih =>
    rw [List.mapM_cons]
    rcases List.mem_cons.mp ha with rfl | ha
    · rw [h]
      rfl
    · rw [ih ha]
      cases f b <;> rfl

theorem readInts?_eq {items : List (List Char)} {lists : List (List ℤ)} (h : Joined text items)
    (hlists : List.Forall₂ ItemText items lists) : readInts? text = some lists.flatten := by
  have hne : lists.flatten ≠ [] := by
    cases h with
    | last _ | cons _ _ _ =>
      cases hlists with
      | cons hitem _ => exact List.append_ne_nil_of_left_ne_nil hitem.ne_nil _
  rw [readInts?, listWords_eq_of_forall h (isWord_of_items hlists), mapM_items? hlists]
  exact if_neg hne

theorem readInts?_eq_none {items : List (List Char)} {item : List Char} (h : Joined text items)
    (hitem : item ∈ items) (hwide : WideRange item) : readInts? text = none := by
  have hword : item ∈ listWords text := by
    rw [h.listWords_eq, List.mem_filter, hwide.isWord_eq]
    exact ⟨hitem, rfl⟩
  rw [readInts?, mapM_eq_none hword hwide.items?_eq]
  rfl

end

/-- The cast to a list of integers gives what its items stand for, one after the other. When the
ends of a range are too far apart, it gives nothing, whatever the other items are. On every text,
counting in words of 64 bits gives the same, and meets no sum that overflows. -/
theorem cast?_intList :
    (∀ text items lists, Joined text items → List.Forall₂ ItemText items lists →
      intList.cast? text = some (.list lists.flatten)) ∧
    (∀ text items, Joined text items → (∃ item ∈ items, WideRange item) →
      intList.cast? text = none) ∧
    ∀ text, (guardedInts (trim text)).map (fun ns => Arg.list (ns.map Int64.toInt)) =
        orRefused (intList.cast? text) ∧
      ∀ a b, guardedInts (trim text) ≠ .error (.overflow a b) := by
  refine ⟨fun text items lists h hlists => ?_, fun text items h => ?_, fun text => ⟨?_, ?_⟩⟩
  · rw [cast?, h.trim_eq]
    exact congrArg (Option.map Arg.list) (readInts?_eq h hlists)
  · rintro ⟨item, hitem, hwide⟩
    rw [cast?, h.trim_eq]
    exact congrArg (Option.map Arg.list) (readInts?_eq_none h hitem hwide)
  · calc (guardedInts (trim text)).map (fun ns => Arg.list (ns.map Int64.toInt))
      _ = ((guardedInts (trim text)).map (·.map Int64.toInt)).map Arg.list := by
        cases guardedInts (trim text) <;> rfl
      _ = orRefused ((readInts? (trim text)).map Arg.list) := by
        rw [guardedInts_eq, orRefused_map]
  · exact guardedInts_ne_overflow (trim text)

/-- A list with all kinds of items and separators, and one with the widest of all ranges. -/
theorem cast?_intList_mixed :
    (Joined "+1, 2 AND 4-6,and\t9-7".toList
        ["+1".toList, "2".toList, "4-6".toList, "9-7".toList] ∧
      List.Forall₂ ItemText ["+1".toList, "2".toList, "4-6".toList, "9-7".toList]
        [[1], [2], ascending 4 6, ascending 9 7] ∧
      intList.cast? "+1, 2 AND 4-6,and\t9-7".toList = some (.list [1, 2, 4, 5, 6, 7, 8, 9])) ∧
    Joined "x 9223372036854775807--9223372036854775808".toList
      ["x".toList, "9223372036854775807--9223372036854775808".toList] ∧
    WideRange "9223372036854775807--9223372036854775808".toList ∧
    intList.cast? "x 9223372036854775807--9223372036854775808".toList = none := by
  have number {text : List Char} {n : ℤ} (h : Decimal.readInt? text = some n) : Writes64 text n :=
    have ⟨hwrites, hmin, hmax⟩ := Decimal.readInt?_eq_some_iff.mp h
    ⟨hwrites, hmin, hmax⟩
  have hone : ItemText "+1".toList [1] := .one (number rfl)
  have htwo : ItemText "2".toList [2] := .one (number rfl)
  have hup : ItemText "4-6".toList (ascending 4 6) :=
    have hlow : Writes64 "4".toList 4 := number rfl
    have hhigh : Writes64 "6".toList 6 := number rfl
    .range hlow (by decide) hhigh (by decide)
  have hdown : ItemText "9-7".toList (ascending 9 7) :=
    have hlow : Writes64 "9".toList 9 := number rfl
    have hhigh : Writes64 "7".toList 7 := number rfl
    .range hlow (by decide) hhigh (by decide)
  have hjoined : Joined "+1, 2 AND 4-6,and\t9-7".toList
      ["+1".toList, "2".toList, "4-6".toList, "9-7".toList] :=
    .cons hone.isListWord (.cons (c := ',') rfl (.gap (c := ' ') rfl)) <|
      .cons htwo.isListWord (.word (c := ' ') (w := "AND".toList) rfl rfl (.gap (c := ' ') rfl)) <|
      .cons hup.isListWord (.word (c := ',') (w := "and".toList) rfl rfl (.gap (c := '\t') rfl)) <|
      .last hdown.isListWord
  have hitems := List.Forall₂.cons hone <| .cons htwo <| .cons hup <| .cons hdown .nil
  have hfour : ascending 4 6 = [4, 5, 6] := (intRange_eq_ascending 4 6).symm
  have hnine : ascending 9 7 = [7, 8, 9] := (intRange_eq_ascending 9 7).symm
  have hlist := cast?_intList.1 _ _ _ hjoined hitems
  rw [hfour, hnine] at hlist
  have hgreatest : Writes64 "9223372036854775807".toList 9223372036854775807 := number rfl
  have hleast : Writes64 "-9223372036854775808".toList (-9223372036854775808) := number rfl
  have hwide : WideRange "9223372036854775807--9223372036854775808".toList :=
    .intro hgreatest hleast (by decide)
  have hwideJoined : Joined "x 9223372036854775807--9223372036854775808".toList
      ["x".toList, "9223372036854775807--9223372036854775808".toList] :=
    .cons ⟨by simp, List.forall_mem_singleton.mpr (by decide)⟩ (.gap (c := ' ') rfl) <|
      .last (isListWord_range hgreatest.writes hleast.writes)
  exact ⟨⟨hjoined, hitems, hlist⟩, hwideJoined, hwide,
    cast?_intList.2.1 _ _ hwideJoined ⟨_, by simp, hwide⟩⟩

end Raceway.CaptureType
