/-!
# Blank characters, lines and words

A character is blank when it has the Unicode property White_Space: 25 characters in ten ranges,
the same in every version since 6.3. Texts are lists of characters here, so that every function
below is a fold or a filter over the text.

## Main definitions

* `Raceway.Text.isBlank`: the property White_Space.
* `Raceway.Text.trim`: a text without the blanks at its two ends.
* `Raceway.Text.lines`: the lines of a text, without their terminators.
* `Raceway.Text.words`: the maximal runs of characters that are not blank.

## Main results

* `Raceway.Text.head_trimStart` and `Raceway.Text.last_trimEnd`: nothing is left to trim.
-/

namespace Raceway.Text

/-! ### The property -/

/-- The closed ranges of code points that are blank, ascending and apart. -/
def blankRanges : List (Nat × Nat) :=
  [(0x09, 0x0D), (0x20, 0x20), (0x85, 0x85), (0xA0, 0xA0), (0x1680, 0x1680), (0x2000, 0x200A),
    (0x2028, 0x2029), (0x202F, 0x202F), (0x205F, 0x205F), (0x3000, 0x3000)]

/-- The character has the property White_Space. -/
def isBlank (c : Char) : Bool :=
  blankRanges.any fun range => range.1 ≤ c.toNat && c.toNat ≤ range.2

/-! ### Trimming -/

/-- The text without its leading blanks. -/
def trimStart (s : List Char) : List Char :=
  s.dropWhile isBlank

/-- The text without its trailing blanks. -/
def trimEnd (s : List Char) : List Char :=
  (s.reverse.dropWhile isBlank).reverse

/-- The text without the blanks at its two ends. -/
def trim (s : List Char) : List Char :=
  trimEnd (trimStart s)

/-- A text that is empty or starts with a character that is not blank has nothing to trim in
front. -/
theorem trimStart_of_head (s : List Char) (h : ∀ c, s.head? = some c → isBlank c = false) :
    trimStart s = s := by
  cases s with
  | nil => rfl
  | cons c r => simp [trimStart, h c rfl]

private theorem head_dropWhile (p : Char → Bool) (s : List Char) (c : Char)
    (h : (s.dropWhile p).head? = some c) : p c = false := by
  induction s with
  | nil => simp at h
  | cons d r ih =>
    rw [List.dropWhile_cons] at h
    split at h
    · exact ih h
    · rename_i hd
      simp only [List.head?_cons, Option.some.injEq] at h
      simpa [← h] using hd

/-- After trimming, the first character is not blank. -/
theorem head_trimStart (s : List Char) (c : Char) (h : (trimStart s).head? = some c) :
    isBlank c = false :=
  head_dropWhile isBlank s c h

/-- After trimming at the end, the last character is not blank. -/
theorem last_trimEnd (s : List Char) (c : Char) (h : (trimEnd s).getLast? = some c) :
    isBlank c = false := by
  rw [trimEnd, List.getLast?_reverse] at h
  exact head_dropWhile isBlank _ c h

/-! ### Lines and words -/

/-- Extend the first of the lines read so far by a character in front. -/
def pushLine (c : Char) : List (List Char) → List (List Char)
  | [] => [[c]]
  | line :: rest => (c :: line) :: rest

/-- One step of reading lines from the end of the text: whether the character just read was a
line feed, and the lines behind it. A carriage return directly before a line feed belongs to the
terminator. -/
def lineStep (c : Char) : Bool × List (List Char) → Bool × List (List Char)
  | (afterFeed, lines) =>
    if c = '\n' then (true, [] :: lines)
    else if c = '\r' && afterFeed then (false, lines)
    else (false, pushLine c lines)

/-- The lines of a text. A line ends with a line feed, or a carriage return and a line feed, or
with the text; the terminator is not part of it, and no empty line follows the last one. -/
def lines (s : List Char) : List (List Char) :=
  (s.foldr lineStep (false, [])).2

/-- One step of reading words from the end of the text: whether the character just read belongs
to the first of the words behind it. -/
def wordStep (c : Char) : Bool × List (List Char) → Bool × List (List Char)
  | (inWord, words) =>
    if isBlank c then (false, words)
    else if inWord then (true, pushLine c words)
    else (true, [c] :: words)

/-- The maximal runs of characters that are not blank. -/
def words (s : List Char) : List (List Char) :=
  (s.foldr wordStep (false, [])).2

end Raceway.Text
