import Mathlib
import Raceway.Text.Property
/-!
# Looking up categories

The category of a character is that of the last run of code points that starts at it or in front of
it, found by halving a table of the starts. A walk along the runs finds the same. The walk needs no
table, so it can be carried out on the written runs, and it shows that no blank character belongs to
a word, and that no dash is a digit.

## Main definitions

* `Raceway.Text.walkRuns`: the category of a code point, found by walking along the runs.

## Main results

* `Raceway.Text.lastStart_spec`: halving finds the last start.
* `Raceway.Text.category_eq_of_walkRuns`: the walk finds the category.
* `Raceway.Text.isWordChar_of_isBlank`: no blank character belongs to a word.
* `Raceway.Text.isLetter_eq` and `Raceway.Text.isNumeric_eq`: letters and numbers are told by their
  category.
* `Raceway.Text.isDecimalDigit_of_mem_foreignDashes`: no dash is a decimal digit.
-/

namespace Raceway.Text

/-! ### The table -/

theorem length_runStarts (start : ℕ) (runs : List (ℕ × ℕ)) :
    (runStarts start runs).length = runs.length := by
  induction runs generalizing start with
  | nil => rfl
  | cons run runs ih => rw [runStarts, List.length_cons, ih, List.length_cons]

theorem le_of_mem_runStarts {start : ℕ} {runs : List (ℕ × ℕ)} {entry : ℕ × Category}
    (h : entry ∈ runStarts start runs) : start ≤ entry.1 := by
  induction runs generalizing start with
  | nil => exact absurd h List.not_mem_nil
  | cons run runs ih =>
    rcases List.mem_cons.mp h with rfl | h
    · exact le_rfl
    · exact (Nat.le_add_right start _).trans (ih h)

/-! ### Halving -/

/-- The steps of a search among `2 ^ k` places. -/
def halvings : ℕ → List ℕ
  | 0 => []
  | k + 1 => 2 ^ k :: halvings k

/-- Between a place that has a property and one further on that does not, halving finds a place that
has it and is followed by one that does not. -/
theorem foldl_halvings {p : ℕ → Bool} (k : ℕ) {i : ℕ} (h : p i = true)
    (hend : p (i + 2 ^ k) = false) :
    p ((halvings k).foldl (fun i step => if p (i + step) then i + step else i) i) = true ∧
      p ((halvings k).foldl (fun i step => if p (i + step) then i + step else i) i + 1) =
        false := by
  induction k generalizing i with
  | zero => exact ⟨h, hend⟩
  | succ k ih =>
    rw [halvings, List.foldl_cons]
    split_ifs with hmid
    · exact ih hmid (by rwa [Nat.add_assoc, ← Nat.two_mul, ← Nat.pow_succ'])
    · exact ih h (Bool.eq_false_iff.mpr hmid)

/-- Halving finds the last start that is not too far on. -/
theorem lastStart_spec {table : Array (ℕ × Category)} {n : ℕ} (hsize : table.size ≤ 2 ^ 13)
    (hfirst : (table[0]?).any (·.1 ≤ n) = true) :
    (table[lastStart table n]?).any (·.1 ≤ n) = true ∧
      (table[lastStart table n + 1]?).any (·.1 ≤ n) = false := by
  have hend : (table[0 + 2 ^ 13]?).any (·.1 ≤ n) = false := by
    rw [Array.getElem?_eq_none (by omega)]
    rfl
  have hsteps : [4096, 2048, 1024, 512, 256, 128, 64, 32, 16, 8, 4, 2, 1] = halvings 13 := by
    decide
  have hfound := foldl_halvings (p := fun i => (table[i]?).any (·.1 ≤ n)) 13 hfirst hend
  rw [lastStart, hsteps]
  exact hfound

/-! ### Walking -/

/-- The category of a code point, found by walking along the runs from a code point on. -/
def walkRuns (n : ℕ) : ℕ → List (ℕ × ℕ) → Option Category
  | _, [] => none
  | start, (position, length) :: runs =>
    if n < start + max length 1 then some (Category.ofPosition position)
    else walkRuns n (start + max length 1) runs

/-- The walk ends at the last start that is not too far on. -/
theorem getElem?_of_walkRuns {n : ℕ} {runs : List (ℕ × ℕ)} {cat : Category} {start k : ℕ}
    (hwalk : walkRuns n start runs = some cat) (hstart : start ≤ n)
    (hk : ((runStarts start runs)[k]?).any (·.1 ≤ n) = true)
    (hnext : ((runStarts start runs)[k + 1]?).any (·.1 ≤ n) = false) :
    ((runStarts start runs)[k]?).map Prod.snd = some cat := by
  induction runs generalizing start k with
  | nil => cases hwalk
  | cons run runs ih =>
    obtain ⟨position, length⟩ := run
    rw [walkRuns] at hwalk
    rw [runStarts, List.getElem?_cons_succ] at hnext
    split_ifs at hwalk with hhere
    · cases k with
      | zero => exact hwalk
      | succ k =>
        rw [runStarts, List.getElem?_cons_succ, Option.any_eq_true] at hk
        obtain ⟨entry, hentry, hle⟩ := hk
        have hfrom := le_of_mem_runStarts (List.mem_of_getElem? hentry)
        have hle := of_decide_eq_true hle
        omega
    · cases k with
      | zero =>
        -- The walk goes on, so there is a next run, and it starts early enough.
        cases runs with
        | nil => cases hwalk
        | cons next runs =>
          rw [runStarts, List.getElem?_cons_zero, Option.any_some, decide_eq_false_iff_not] at hnext
          exact absurd (not_lt.mp hhere) hnext
      | succ k => exact ih hwalk (not_lt.mp hhere) hk hnext

/-- The walk finds what the table of the runs gives. -/
theorem categoryIn_of_walkRuns {n : ℕ} {runs : List (ℕ × ℕ)} {cat : Category}
    (hlength : runs.length ≤ 2 ^ 13) (hwalk : walkRuns n 0 runs = some cat) :
    categoryIn (runStarts 0 runs).toArray n = cat := by
  have hsize : (runStarts 0 runs).toArray.size ≤ 2 ^ 13 := by
    rwa [List.size_toArray, length_runStarts]
  have hfirst : ((runStarts 0 runs).toArray[0]?).any (·.1 ≤ n) = true := by
    cases runs with
    | nil => cases hwalk
    | cons run runs => simp [runStarts]
  obtain ⟨hk, hnext⟩ := lastStart_spec hsize hfirst
  rw [List.getElem?_toArray] at hk hnext
  obtain ⟨entry, hentry, rfl⟩ :=
    Option.map_eq_some_iff.mp (getElem?_of_walkRuns hwalk (Nat.zero_le _) hk hnext)
  rw [categoryIn, List.getElem?_toArray, hentry]

/-- The walk finds the category. -/
theorem category_eq_of_walkRuns {c : Char} {cat : Category} (hlength : decodedRuns.length ≤ 2 ^ 13)
    (hwalk : walkRuns c.toNat 0 decodedRuns = some cat) : category c = cat :=
  categoryIn_of_walkRuns hlength hwalk

/-! ### The written runs -/

/-- The runs that written lines stand for. -/
def runsOfLines (lines : List (List Char)) : List (ℕ × ℕ) :=
  (lines.foldl (fun runs line => line.foldl decodeRun runs) []).reverse

theorem decodedRuns_eq : decodedRuns = runsOfLines (categoryRuns.map String.toList) := by
  rw [decodedRuns, runsOfLines, List.foldl_map]

theorem map_toList_cons {s : String} {line : List Char} {ss : List String}
    {lines : List (List Char)} (h : s.toList = line) (hs : ss.map String.toList = lines) :
    (s :: ss).map String.toList = line :: lines := by
  rw [List.map_cons, h, hs]

/-- The code points above the ASCII ones that are blank. -/
def foreignBlanks : List ℕ :=
  [0x85, 0xA0, 0x1680, 0x2000, 0x2001, 0x2002, 0x2003, 0x2004, 0x2005, 0x2006, 0x2007, 0x2008,
    0x2009, 0x200A, 0x2028, 0x2029, 0x202F, 0x205F, 0x3000]

/-- The categories of blank characters. -/
def blankCategories : List Category :=
  [.spaceSeparator, .lineSeparator, .paragraphSeparator, .control]

/-- The code points of hyphens, dashes and minus signs. -/
def foreignDashes : List ℕ :=
  [0x2010, 0x2011, 0x2012, 0x2013, 0x2014, 0x2015, 0x2212, 0xFE58, 0xFE63, 0xFF0D]

/-- The categories of dashes. -/
def dashCategories : List Category :=
  [.dashPunctuation, .mathSymbol]

/-- The category tells letters and numbers as the classes of ASCII characters do. -/
def agreesOnAscii (n : ℕ) (cat : Category) : Bool :=
  cat.isLetter == (Char.ofNat n).isAlpha && cat.isNumber == (Char.ofNat n).isDigit

/-- What a walk along the runs finds. The lines are taken apart into characters first, since the
kernel is slow at that. -/
theorem walkRuns_decodedRuns : decodedRuns.length ≤ 2 ^ 13 ∧
    (∀ n ∈ foreignBlanks, (walkRuns n 0 decodedRuns).any blankCategories.contains = true) ∧
      walkRuns 'ſ'.toNat 0 decodedRuns = some .lowercaseLetter ∧
      (∀ n ∈ foreignDashes, (walkRuns n 0 decodedRuns).any dashCategories.contains = true) ∧
      ∀ n < 128, (walkRuns n 0 decodedRuns).any (agreesOnAscii n) = true := by
  have hlines : ∃ lines, categoryRuns.map String.toList = lines ∧
      ((runsOfLines lines).length ≤ 2 ^ 13 ∧
        (∀ n ∈ foreignBlanks,
          (walkRuns n 0 (runsOfLines lines)).any blankCategories.contains = true) ∧
        walkRuns 'ſ'.toNat 0 (runsOfLines lines) = some .lowercaseLetter ∧
        (∀ n ∈ foreignDashes,
          (walkRuns n 0 (runsOfLines lines)).any dashCategories.contains = true) ∧
        ∀ n < 128, (walkRuns n 0 (runsOfLines lines)).any (agreesOnAscii n) = true) := by
    apply Exists.intro
    apply And.intro
    · rewrite [categoryRuns]
      repeat apply map_toList_cons String.toList_ofList
      exact List.map_nil
    · decide +kernel
  obtain ⟨lines, hlines, hfacts⟩ := hlines
  rwa [decodedRuns_eq, hlines]

/-! ### Words -/

theorem category_mem_of_walkRuns {c : Char} {cats : List Category}
    (h : (walkRuns c.toNat 0 decodedRuns).any cats.contains = true) : category c ∈ cats := by
  obtain ⟨cat, hwalk, hcat⟩ := (Option.any_eq_true _ _).mp h
  rwa [category_eq_of_walkRuns walkRuns_decodedRuns.1 hwalk, ← List.contains_iff_mem]

theorem mem_foreignBlanks {c : Char} (h : isBlank c = true) (hascii : 128 ≤ c.toNat) :
    c.toNat ∈ foreignBlanks := by
  simp only [isBlank, blankRanges, List.any_cons, List.any_nil, Bool.or_false, Bool.or_eq_true,
    Bool.and_eq_true, decide_eq_true_eq] at h
  simp only [foreignBlanks, List.mem_cons, List.not_mem_nil, or_false]
  omega

/-- No blank character belongs to a word. -/
theorem isWordChar_of_isBlank {c : Char} (h : isBlank c = true) : isWordChar c = false := by
  rw [isWordChar, byRange]
  split_ifs with hascii
  · have hcodes : ∀ n < 128, isBlank (Char.ofNat n) = true →
        ((Char.ofNat n).isAlphanum || Char.ofNat n == '_') = false := by decide +kernel
    rw [← Char.ofNat_toNat c] at h ⊢
    exact hcodes _ hascii h
  · have hmem := mem_foreignBlanks h (not_lt.mp hascii)
    have hcat := category_mem_of_walkRuns (walkRuns_decodedRuns.2.1 _ hmem)
    have hother : ∀ n ∈ foreignBlanks, inRanges otherAlphabetic (Char.ofNat n) = false ∧
        isJoinControl (Char.ofNat n) = false := by decide +kernel
    obtain ⟨halphabetic, hjoin⟩ := hother _ hmem
    rw [Char.ofNat_toNat] at halphabetic hjoin
    rw [isAlphabetic, byRange, if_neg hascii, halphabetic, hjoin]
    simp only [blankCategories, List.mem_cons, List.not_mem_nil, or_false] at hcat
    rcases hcat with hcat | hcat | hcat | hcat <;> rw [hcat] <;> rfl

theorem category_longS : category 'ſ' = .lowercaseLetter :=
  category_eq_of_walkRuns walkRuns_decodedRuns.1 walkRuns_decodedRuns.2.2.1

theorem isWordChar_longS : isWordChar 'ſ' = true := by
  rw [isWordChar, byRange, if_neg (by decide), isAlphabetic, byRange, if_neg (by decide),
    category_longS]
  rfl

theorem isDecimalDigit_longS : isDecimalDigit 'ſ' = false := by
  rw [isDecimalDigit, byRange, if_neg (by decide), category_longS]
  rfl

/-! ### Letters and numbers -/

theorem category_of_ascii {c : Char} (h : c.toNat < 128) :
    (category c).isLetter = c.isAlpha ∧ (category c).isNumber = c.isDigit := by
  obtain ⟨cat, hwalk, hcat⟩ := (Option.any_eq_true _ _).mp (walkRuns_decodedRuns.2.2.2.2 _ h)
  rw [agreesOnAscii, Char.ofNat_toNat, Bool.and_eq_true, beq_iff_eq, beq_iff_eq] at hcat
  rwa [category_eq_of_walkRuns walkRuns_decodedRuns.1 hwalk]

/-- Letters are told by their category, the ASCII ones included. -/
theorem isLetter_eq (c : Char) : isLetter c = (category c).isLetter := by
  rw [isLetter, byRange]
  split_ifs with hascii
  · exact (category_of_ascii hascii).1.symm
  · rfl

/-- So are numbers. -/
theorem isNumeric_eq (c : Char) : isNumeric c = (category c).isNumber := by
  rw [isNumeric, byRange]
  split_ifs with hascii
  · exact (category_of_ascii hascii).2.symm
  · rfl

/-- No letter is a number. -/
theorem isNumeric_of_isLetter {c : Char} (h : isLetter c = true) : isNumeric c = false := by
  rw [isLetter_eq] at h
  rw [isNumeric_eq]
  revert h
  cases category c <;> decide

/-- Letters are alphabetic. -/
theorem isAlphabetic_of_isLetter {c : Char} (h : isLetter c = true) : isAlphabetic c = true := by
  rw [isLetter, byRange] at h
  rw [isAlphabetic, byRange]
  split_ifs at h ⊢
  · exact h
  · rw [h]
    rfl

/-! ### Digits -/

/-- A decimal digit belongs to a word. -/
theorem isWordChar_of_isDecimalDigit {c : Char} (h : isDecimalDigit c = true) :
    isWordChar c = true := by
  rw [isDecimalDigit, byRange] at h
  rw [isWordChar, byRange]
  split_ifs at h ⊢
  · simp [Char.isAlphanum, h]
  · simp [h]

/-- No dash is a decimal digit. -/
theorem isDecimalDigit_of_mem_foreignDashes {c : Char} (h : c.toNat ∈ foreignDashes) :
    isDecimalDigit c = false := by
  have hcat := category_mem_of_walkRuns (walkRuns_decodedRuns.2.2.2.1 _ h)
  have hforeign : ∀ n ∈ foreignDashes, ¬ n < 128 := by decide
  rw [isDecimalDigit, byRange, if_neg (hforeign _ h)]
  simp only [dashCategories, List.mem_cons, List.not_mem_nil, or_false] at hcat
  rcases hcat with hcat | hcat <;> rw [hcat] <;> rfl

end Raceway.Text
