import Raceway.Pattern.Search
import Raceway.Text.Blank
/-!
# The wording of a request

Requests are brought into one wording before rules are matched. Line ends and dashes are unified,
units behind numbers are dropped, phrases that set margins become two fixed words, and ranges of
rows are written with a hyphen. Every replacement is repeated until it changes nothing. At last each
line loses the blanks around it, and empty lines are dropped.

## Main definitions

* `Raceway.Wording.replaceFully`: a replacement, repeated.
* `Raceway.Wording.normalize`: the wording of a request.
-/

namespace Raceway.Wording

open Text Pattern

/-! ### Characters -/

/-- The text with a line feed for every line end. -/
def unifyLineEnds : List Char → List Char
  | [] => []
  | '\r' :: '\n' :: rest => '\n' :: unifyLineEnds rest
  | c :: rest => (if c = '\r' then '\n' else c) :: unifyLineEnds rest

/-- The dashes that stand for a hyphen. -/
def dashes : List Char :=
  ['‐', '‑', '‒', '–', '—', '―', '−', '﹘', '﹣', '－']

/-- A hyphen for a dash, and any other character for itself. -/
def unifyDash (c : Char) : Char :=
  if dashes.contains c then '-' else c

/-! ### Patterns -/

/-- A space or a tab. -/
def spaceOrTab : Pattern :=
  one (.ofList [' ', '\t'])

/-- Spaces and tabs. -/
def spacing : Pattern :=
  plus true spaceOrTab

/-- Spaces and tabs, or nothing. -/
def anySpace : Pattern :=
  star true spaceOrTab

/-- The edge of a word. -/
def edge : Pattern :=
  .assert (.wordEdge .word)

/-- A digit. -/
def digit : Pattern :=
  one (.property .digit)

/-- A word in any letter case. -/
def word (s : String) : Pattern :=
  anyCase s.toList

/-- A number that is kept under the given number. -/
def keptNumber (index : Nat) : Pattern :=
  .group index (plus true digit)

/-- A unit of length: metres, in full or in short. -/
def unit : Pattern :=
  oneOf [.seq (word "meter") (opt true (word "s")), .seq (word "metre") (opt true (word "s")),
    word "m"]

/-- A digit, which is kept, and units behind it. -/
def digitWithUnits : Pattern :=
  .seq (.group 1 digit) (plus true (sequence [anySpace, unit, edge]))

/-- A word that asks for a margin. -/
def guardWord : Pattern :=
  .alt (word "protect") (word "safe")

/-- A margin at the given end, with its number of rows. -/
def margin (side : String) (index : Nat) : Pattern :=
  sequence [word side, spacing, keptNumber index]

/-- A phrase that sets the margin at one end. -/
def oneMargin (side : String) : Pattern :=
  sequence [edge, guardWord, spacing, margin side 1]

/-- A phrase that sets the margins at both ends. -/
def twoMargins : Pattern :=
  sequence [edge, guardWord, spacing, margin "start" 1,
    plus true (one (.ofList [' ', '\t', ','])),
    opt true (.seq (word "and") spacing), opt true (.seq guardWord spacing),
    margin "end" 2]

/-- What stands between the two numbers of a range. -/
def rangeWord : Pattern :=
  oneOf [word "to", word "through", word "thru", char '-', literal ['.', '.']]

/-- A range of rows. -/
def rangeOfRows : Pattern :=
  sequence [edge, .seq (word "row") (opt true (word "s")), spacing, keptNumber 1, anySpace,
    rangeWord, anySpace, keptNumber 2]

/-! ### Replacements -/

/-- Repeat a step until it changes nothing, at most the given number of times. -/
def settle (step : List Char → List Char) : Nat → List Char → List Char
  | 0, text => text
  | n + 1, text =>
    let next := step text
    if next = text then text else settle step n next

/-- Replace the matches of a pattern until nothing changes. -/
def replaceFully (p : Pattern) (f : Match → List Char) (text : List Char) : List Char :=
  settle (p.replaceAll f) (text.length + 2) text

/-- Put one space for spaces and tabs. -/
def oneSpace (_ : Match) : List Char :=
  [' ']

/-- Keep the digit alone. -/
def keepDigit (m : Match) : List Char :=
  m.groupText 1

/-- The two words that set a margin. -/
def marginWords (side : String) (number : List Char) : List Char :=
  ("margin_" ++ side ++ " ").toList ++ number

/-- The words that set both margins. -/
def bothWords (m : Match) : List Char :=
  marginWords "start" (m.groupText 1) ++ [' '] ++ marginWords "end" (m.groupText 2)

/-- The words that set the margin at one end. -/
def oneWords (side : String) (m : Match) : List Char :=
  marginWords side (m.groupText 1)

/-- A range of rows with a hyphen. -/
def rangeWords (m : Match) : List Char :=
  "rows ".toList ++ m.groupText 1 ++ ['-'] ++ m.groupText 2

/-- All replacements, one after the other. -/
def respell (text : List Char) : List Char :=
  let text := replaceFully spacing oneSpace text
  let text := replaceFully digitWithUnits keepDigit text
  let text := replaceFully twoMargins bothWords text
  let text := replaceFully (oneMargin "start") (oneWords "start") text
  let text := replaceFully (oneMargin "end") (oneWords "end") text
  replaceFully rangeOfRows rangeWords text

/-- A line without the blanks around it, and with single spaces in it. -/
def tidyLine (line : List Char) : List Char :=
  spacing.replaceAll oneSpace (trim line)

/-- Lines with a line feed between each two. -/
def joinLines (lines : List (List Char)) : List Char :=
  ['\n'].intercalate lines

/-- The wording of a request. -/
def normalize (text : List Char) : List Char :=
  let text := respell ((unifyLineEnds text).map unifyDash)
  joinLines (((lines text).map tidyLine).filter fun line => !line.isEmpty)

end Raceway.Wording
