import Raceway.Pattern.Class
/-!
# Patterns

A pattern describes texts by characters, positions, sequence, choice and repetition, and marks
groups whose texts are kept. It matches at a place of a text in at most one way, the preferred one:
of two alternatives the first that lets the rest match, of a repetition the longest or the shortest.

The matcher takes what has to follow as a function on places, and gives what that function gives at
the first place that it accepts. It recurses on the pattern; a repetition goes on only while it
makes progress, so the number of characters that are left bounds it.

## Main definitions

* `Raceway.Pattern`: a pattern.
* `Raceway.Cursor`: a place in a text, with the groups that are marked so far.
* `Raceway.Pattern.matchThen`: the matcher.
* `Raceway.Pattern.star`, `Raceway.Pattern.plus`, `Raceway.Pattern.opt`, `Raceway.Pattern.between`:
  repetition.
-/

namespace Raceway

open Text

/-! ### Places -/

/-- The text of a group and where it starts. -/
structure GroupMatch where
  /-- The number of characters in front of it. -/
  start : Nat
  /-- Its text. -/
  text : List Char
deriving DecidableEq

/-- A place in a text. -/
structure Cursor where
  /-- The number of characters in front of the place. -/
  offset : Nat
  /-- The character in front of the place. -/
  before : Option Char
  /-- What follows. -/
  rest : List Char
  /-- The groups marked so far by their numbers, the last one first. -/
  groups : List (Nat × GroupMatch)

namespace Cursor

/-- The start of a text. -/
def start (text : List Char) : Cursor :=
  ⟨0, none, text, []⟩

/-- The place behind the next character, if it is in a class. -/
def take? (chars : CharClass) (s : Cursor) : Option Cursor :=
  match s.rest with
  | [] => none
  | c :: rest => if chars.has c then some ⟨s.offset + 1, some c, rest, s.groups⟩ else none

/-- Mark the text between two places as a group. -/
def mark (index : Nat) (opened closed : Cursor) : Cursor :=
  { closed with
    groups := (index, ⟨opened.offset, opened.rest.take (closed.offset - opened.offset)⟩)
      :: closed.groups }

end Cursor

/-! ### Positions -/

/-- A condition on a place. -/
inductive Assertion where
  /-- The start of the text. -/
  | textStart
  /-- The end of the text. -/
  | textEnd
  /-- The start of a line. -/
  | lineStart
  /-- The end of a line. -/
  | lineEnd
  /-- The start of a line, where a carriage return ends a line too. -/
  | returnStart
  /-- The end of a line, where a carriage return ends a line too. -/
  | returnEnd
  /-- The edge of a word. -/
  | wordEdge (isWord : Property)
  /-- Not the edge of a word. -/
  | noWordEdge (isWord : Property)
  /-- The start of a word. -/
  | wordStart (isWord : Property)
  /-- The end of a word. -/
  | wordEnd (isWord : Property)
  /-- No word in front. -/
  | noWordBefore (isWord : Property)
  /-- No word behind. -/
  | noWordAfter (isWord : Property)
deriving DecidableEq

/-- The condition holds between two characters, where there is none at the ends of the text. -/
def Assertion.holds (a : Assertion) (before after : Option Char) : Bool :=
  match a with
  | textStart => before.isNone
  | textEnd => after.isNone
  | lineStart => before.all (· == '\n')
  | lineEnd => after.all (· == '\n')
  | returnStart => before.all fun c => c == '\n' || (c == '\r' && after != some '\n')
  | returnEnd => after.all fun c => c == '\r' || (c == '\n' && before != some '\r')
  | wordEdge w => before.any w.has != after.any w.has
  | noWordEdge w => before.any w.has == after.any w.has
  | wordStart w => !before.any w.has && after.any w.has
  | wordEnd w => before.any w.has && !after.any w.has
  | noWordBefore w => !before.any w.has
  | noWordAfter w => !after.any w.has

/-! ### Patterns -/

/-- A pattern. -/
inductive Pattern where
  /-- The empty text. -/
  | empty
  /-- A character of a class. -/
  | one (chars : CharClass)
  /-- A condition on the place. -/
  | assert (a : Assertion)
  /-- One pattern and then another. -/
  | seq (p q : Pattern)
  /-- The first pattern, or else the second. -/
  | alt (p q : Pattern)
  /-- The first pattern, and behind it the second one, unless the first one has matched the empty
  text. -/
  | follow (p q : Pattern)
  /-- Any number of non-empty matches, as many as possible if it is greedy, else as few. -/
  | loop (greedy : Bool) (p : Pattern)
  /-- A pattern whose text is kept under a number. -/
  | group (index : Nat) (p : Pattern)
deriving DecidableEq

namespace Pattern

/-! ### Matching -/

/-- Repeat a step that makes progress, at most the given number of times, and go on. -/
def iterate {β : Type} (step : (Cursor → Option β) → Cursor → Option β) (greedy : Bool)
    (k : Cursor → Option β) : Nat → Cursor → Option β
  | 0, s => k s
  | n + 1, s =>
    let again := fun _ : Unit =>
      step (fun t => if t.rest.length < s.rest.length then iterate step greedy k n t else none) s
    if greedy then (again ()).orElse fun _ => k s else (k s).orElse again

/-- Match a pattern at a place and go on behind it. -/
def matchThen {β : Type} : Pattern → (Cursor → Option β) → Cursor → Option β
  | empty, k, s => k s
  | one chars, k, s => (s.take? chars).bind k
  | assert a, k, s => if a.holds s.before s.rest.head? then k s else none
  | seq p q, k, s => p.matchThen (q.matchThen k) s
  | alt p q, k, s => (p.matchThen k s).orElse fun _ => q.matchThen k s
  | follow p q, k, s =>
    p.matchThen (fun t => if t.rest.length < s.rest.length then q.matchThen k t else k t) s
  | loop greedy p, k, s => iterate p.matchThen greedy k s.rest.length s
  | group index p, k, s => p.matchThen (fun t => k (s.mark index t)) s

/-! ### Repetition and sequence -/

/-- The pattern matches the empty text at some place. -/
def nullable : Pattern → Bool
  | empty => true
  | one _ => false
  | assert _ => true
  | seq p q => p.nullable && q.nullable
  | alt p q => p.nullable || q.nullable
  | follow p _ => p.nullable
  | loop _ _ => true
  | group _ p => p.nullable

/-- The pattern matches nothing but the empty text. -/
def onlyEmpty : Pattern → Bool
  | empty => true
  | one _ => false
  | assert _ => true
  | seq p q | alt p q => p.onlyEmpty && q.onlyEmpty
  | follow p _ => p.onlyEmpty
  | loop _ p => p.onlyEmpty
  | group _ p => p.onlyEmpty

/-- The preferred one of two patterns, or else the other one. -/
def choice (first : Bool) (p q : Pattern) : Pattern :=
  if first then alt p q else alt q p

/-- The pattern, or nothing. -/
def opt (greedy : Bool) (p : Pattern) : Pattern :=
  choice greedy p empty

/-- The pattern once or more often. Only the first match may be empty, and is then the only one. -/
def plus (greedy : Bool) (p : Pattern) : Pattern :=
  if p.nullable then follow p (loop greedy p) else seq p (loop greedy p)

/-- The pattern any number of times. -/
def star (greedy : Bool) (p : Pattern) : Pattern :=
  if p.nullable then opt greedy (plus greedy p) else loop greedy p

/-- Patterns one after the other. -/
def sequence : List Pattern → Pattern
  | [] => empty
  | [p] => p
  | p :: rest => seq p (sequence rest)

/-- The first of some patterns that lets the rest match. -/
def oneOf : List Pattern → Pattern
  | [] => one .nothing
  | [p] => p
  | p :: rest => alt p (oneOf rest)

/-- The pattern at most the given number of times. -/
def atMost (greedy : Bool) (p : Pattern) : Nat → Pattern
  | 0 => empty
  | n + 1 => opt greedy (seq p (atMost greedy p n))

/-- The pattern at least the given number of times. -/
def atLeast (greedy : Bool) (p : Pattern) : Nat → Pattern
  | 0 => star greedy p
  | 1 => plus greedy p
  | n + 1 => seq p (atLeast greedy p n)

/-- The pattern the given number of times. -/
def exactly (p : Pattern) : Nat → Pattern
  | 0 => empty
  | 1 => p
  | n + 1 => seq p (exactly p n)

/-- The pattern at least and at most the given numbers of times. -/
def between (greedy : Bool) (p : Pattern) (low high : Nat) : Pattern :=
  if high = 0 then empty
  else if low = 0 then atMost greedy p high
  else if low = high then exactly p low
  else seq (exactly p low) (atMost greedy p (high - low))

/-- The greatest number of a group. -/
def groupCount : Pattern → Nat
  | empty | one _ | assert _ => 0
  | seq p q | alt p q | follow p q => max p.groupCount q.groupCount
  | loop _ p => p.groupCount
  | group index p => max index p.groupCount

/-- The number of parts of a pattern. -/
def size : Pattern → Nat
  | empty | one _ | assert _ => 1
  | seq p q | alt p q | follow p q => p.size + q.size + 1
  | loop _ p | group _ p => p.size + 1

/-! ### Literal text -/

/-- A character. -/
def char (c : Char) : Pattern :=
  one (.single c)

/-- A text, character by character. -/
def literal (text : List Char) : Pattern :=
  sequence (text.map char)

/-- A text in any letter case. -/
def anyCase (text : List Char) : Pattern :=
  sequence (text.map fun c => one (.anyCase c))

end Pattern

end Raceway
