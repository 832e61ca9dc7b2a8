import Raceway.Pattern.Reader
/-!
# Reading written patterns

A written pattern is a choice of branches; a branch is a sequence of parts, each possibly repeated;
a part is a character, a class, a place or a group. Groups are numbered by their opening
parentheses.

Three limits are the reader's own. Groups, classes and repetitions may be nested to any depth. A
repetition is too large by the number of its parts, not by the bytes that it would compile to. Of
the properties of characters, only those with a name in `Raceway.Pattern.Names` are known.

## Main definitions

* `Raceway.Pattern.ofText`: the pattern that a text writes, under given flags.
-/

namespace Raceway

open Text

namespace PatternReader

/-- A part of a branch. Setting flags leaves a part that cannot be repeated. -/
inductive Part where
  /-- A pattern. -/
  | pattern (p : Pattern)
  /-- Flags. -/
  | flags

/-- The pattern of a part. -/
def Part.toPattern : Part → Pattern
  | pattern p => p
  | flags => .empty

/-! ### Repetition -/

/-- The number of parts that a repetition may grow to, all copies counted. It stands in for a bound
on the bytes of a compiled pattern, and near that bound the two do not agree. -/
def sizeLimit : Nat := 400000

/-- A pattern that is repeated at least, and possibly at most, some number of times. What matches
nothing but the empty text is repeated once at most. -/
def repeated (greedy : Bool) (p : Pattern) (low : Nat) (high : Option Nat) :
    PatternReader Pattern := do
  let (low, high) := if p.onlyEmpty then (min low 1, some (min (high.getD 1) 1)) else (low, high)
  if p.size * max low (high.getD 0) > sizeLimit then
    forbid .tooLarge (← offset)
    return .empty
  else
    match high with
    | some high => return .between greedy p low high
    | none => return .atLeast greedy p low

/-- Take the mark behind a repetition that turns its preference. -/
def greed : PatternReader Bool := do
  let swapped := (← get).flags.swapGreed
  if (← peek) = some '?' then
    advance
    return swapped
  else return !swapped

/-- The last part of a branch, which is to be repeated, and the parts before it. -/
def lastPart : List Part → PatternReader (Pattern × List Part)
  | .pattern p :: before => return (p, before)
  | _ => failHere .repetitionMissing

/-- Take the upper bound of a counted repetition behind its comma, given its lower bound. -/
def upperBound (start : Nat) (low : Except PatternError Nat) :
    PatternReader (Nat × Option Nat) := do
  if !(← advanceSpaced) then failAt .countUnclosed start (← offset)
  if (← peek) = some '\x7d' then return (← low, none)
  else do
    let low ← low
    match ← decimal with
    | .ok high => return (low, some high)
    | .error e => throw e

/-- Take a counted repetition: its bounds and its preference. -/
def counted : PatternReader (Nat × Option Nat × Bool) := do
  let start ← offset
  if !(← advanceSpaced) then failAt .countUnclosed start (← offset)
  let low ← decimal
  match ← peek with
  | none => failAt .countUnclosed start (← offset)
  | some c =>
    let (low, high) ← if c = ',' then upperBound start low else do
      let n ← low
      pure (n, some n)
    if (← peek) ≠ some '\x7d' then failAt .countUnclosed start (← offset)
    let _ ← advanceSpaced
    let greedy ← greed
    if high.any (· < low) then failAt .countInvalid start (← offset)
    return (low, high, greedy)

/-! ### Groups -/

/-- How a group is opened. -/
inductive Opening where
  /-- A group that is kept under a number. -/
  | kept (index : Nat)
  /-- A group that is not kept. -/
  | plain
  /-- Flags for what follows. -/
  | flags

/-- The number of the next group. -/
def nextIndex : PatternReader Nat := do
  modify fun s => { s with groups := s.groups + 1 }
  return (← get).groups

/-- The character may stand in the name of a group. -/
def isNameChar (first : Bool) (c : Char) : Bool :=
  if first then c == '_' || isAlphabetic c
  else c == '_' || c == '.' || c == '[' || c == ']' || isAlphanumeric c

/-- Take the characters of the name of a group, last one first. -/
def nameChars : Nat → List Char → PatternReader (List Char)
  | 0, taken => return taken
  | fuel + 1, taken => do
    match ← peek with
    | none => return taken
    | some c =>
      if c = '>' then return taken
      else if isNameChar taken.isEmpty c then do
        advance
        nameChars fuel (c :: taken)
      else failChar .nameInvalid

/-- Take the name of a group. -/
def groupName : PatternReader Unit := do
  let start ← offset
  let name ← nameChars (← fuel) []
  if (← peek).isNone then failHere .nameEnd
  let stop ← offset
  advance
  if name.isEmpty then failAt .nameEmpty start start
  let s ← get
  if s.names.contains name then failAt .nameDuplicate start stop
  set { s with names := name :: s.names }

/-- Take flags up to a colon or a closing parenthesis. The letters and signs taken so far come last
first. -/
def flagLetters : Nat → List Char → Flags → PatternReader (List Char × Flags)
  | 0, taken, flags => return (taken, flags)
  | fuel + 1, taken, flags => do
    match ← peek with
    | none => failHere .flagEnd
    | some c =>
      if c = ':' ∨ c = ')' then
        if taken.head? = some '-' then
          let here ← offset
          failAt .flagDangling (here - 1) here
        else return (taken, flags)
      else
        let flags ←
          if c = '-' then
            if taken.contains '-' then failChar .flagRepeatedNegation else pure flags
          else
            match flags.set? (!taken.contains '-') c with
            | none => failChar .flagUnknown
            | some changed =>
              if taken.contains c then failChar .flagDuplicate else pure changed
        advance
        if (← peek).isNone then failHere .flagEnd
        flagLetters fuel (c :: taken) flags

/-- The text looks around the place, which patterns do not do: how long the sign for it is. -/
def lookAround? (rest : List Char) : Option Nat :=
  [['?', '='], ['?', '!'], ['?', '<', '='], ['?', '<', '!']].findSome? fun sign =>
    if sign.isPrefixOf rest then some sign.length else none

/-- Take the opening of a group. -/
def opening : PatternReader Opening := do
  let start ← offset
  advance
  skipSpacing
  let inner ← offset
  match lookAround? (← get).rest with
  | some n => failAt .lookAround start (inner + n)
  | none => pure ()
  if ← (takeText ['?', 'P', '<'] <||> takeText ['?', '<']) then
    let index ← nextIndex
    groupName
    return .kept index
  else if ← takeText ['?'] then
    if (← peek).isNone then failAt .groupUnclosed start (start + 1)
    let (taken, flags) ← flagLetters (← fuel) [] (← get).flags
    let closed := (← peek) = some ')'
    advance
    modify fun s => { s with flags }
    if closed then
      if taken.isEmpty then failAt .repetitionMissing inner inner else return .flags
    else return .plain
  else return .kept (← nextIndex)

/-! ### Branches -/

/-- The pattern of an atom. -/
def atomPattern (flags : Flags) : Atom → Pattern
  | .literal c => .one (flags.literal c)
  | .cls a => .one a
  | .place a => .assert a

/-- Take a single part that is no group, no class in brackets and no repetition. -/
def primitive (c : Char) : PatternReader Pattern := do
  let flags := (← get).flags
  match c with
  | '\\' => do
    let a ← escape
    return atomPattern flags a
  | '.' => do
    let start ← offset
    advance
    if !flags.unicode then forbid .notText start
    return .one flags.dot
  | '^' => advance; return .assert flags.startAnchor
  | '$' => advance; return .assert flags.endAnchor
  | c => advance; return .one (flags.literal c)

/-- The pattern of the parts of a branch, which come last first. -/
def branch (parts : List Part) : Pattern :=
  .sequence (parts.reverse.map Part.toPattern)

/-- Repeat the last part of a branch. -/
def repeatLast (parts : List Part) (take : PatternReader (Nat × Option Nat × Bool)) :
    PatternReader (List Part) := do
  let (p, before) ← lastPart parts
  let (low, high, greedy) ← take
  return .pattern (← repeated greedy p low high) :: before

/-- Take a sign of repetition with the given bounds. -/
def sign (low : Nat) (high : Option Nat) : PatternReader (Nat × Option Nat × Bool) := do
  advance
  return (low, high, ← greed)

/-- Take the branches of a choice, up to a closing parenthesis or the end, given the parts of the
branch that is being read, last one first. -/
def branches : Nat → List Part → PatternReader (List Pattern)
  | 0, parts => return [branch parts]
  | fuel + 1, parts => do
    skipSpacing
    match ← peek with
    | none => return [branch parts]
    | some ')' => return [branch parts]
    | some '|' => do
      advance
      return branch parts :: (← branches fuel [])
    | some '(' => do
      let start ← offset
      let outer := (← get).flags
      match ← opening with
      | .flags => branches fuel (.flags :: parts)
      | .plain => do
        let p := Pattern.oneOf (← branches fuel [])
        closeGroup start outer
        branches fuel (.pattern p :: parts)
      | .kept index => do
        let p := Pattern.oneOf (← branches fuel [])
        closeGroup start outer
        branches fuel (.pattern (.group index p) :: parts)
    | some '[' => do
      let a ← bracketed
      branches fuel (.pattern (.one a) :: parts)
    | some '?' => do branches fuel (← repeatLast parts (sign 0 (some 1)))
    | some '*' => do branches fuel (← repeatLast parts (sign 0 none))
    | some '+' => do branches fuel (← repeatLast parts (sign 1 none))
    | some '\x7b' => do branches fuel (← repeatLast parts counted)
    | some c => do
      let p ← primitive c
      branches fuel (.pattern p :: parts)
where
  /-- Take the parenthesis that closes a group opened at a place, and restore the flags around it.
  -/
  closeGroup (start : Nat) (outer : Flags) : PatternReader Unit := do
    if (← peek) ≠ some ')' then failAt .groupUnclosed start (start + 1)
    advance
    modify fun s => { s with flags := outer }

/-- Take a whole pattern. -/
def whole : PatternReader Pattern := do
  let p := Pattern.oneOf (← branches (← fuel) [])
  if (← peek).isSome then failChar .groupUnopened
  match (← get).late with
  | some e => throw e
  | none => return p

end PatternReader

namespace Pattern

/-- The pattern that a text writes, under given flags.

Scripts and other properties that are no general categories are refused, but for those of
`binaryNames`. Groups, classes and repetitions may be nested to any depth. A repetition is refused
for its size where it has more than `PatternReader.sizeLimit` parts; nothing else is. -/
def ofText (flags : Flags) (text : List Char) : Except PatternError Pattern :=
  (PatternReader.whole.run ⟨0, text, flags, 0, [], none⟩).map (·.1)

end Pattern

end Raceway
