import Raceway.Pattern.Basic
/-!
# Searching a text

A walk through a text cuts it into pieces: the matches of a pattern, from left to right and apart
from each other, and the characters between them. Each match starts at the first place that has one.
An empty match directly behind another match does not count.

## Main definitions

* `Raceway.Match`: a match with its groups.
* `Raceway.Pattern.pieces`: the pieces of a text.
* `Raceway.Pattern.findAll`, `Raceway.Pattern.occursIn`, `Raceway.Pattern.replaceAll`.
-/

namespace Raceway

/-- A match of a pattern in a text. -/
structure Match where
  /-- The number of characters in front of it. -/
  start : Nat
  /-- Its text. -/
  text : List Char
  /-- The groups by their numbers, the last one marked first. -/
  groups : List (Nat × GroupMatch)

namespace Match

/-- The number of characters in front of the end of the match. -/
def stop (m : Match) : Nat :=
  m.start + m.text.length

/-- The text of a group, if the match has passed through it. The group zero is the whole match. -/
def group? (m : Match) (index : Nat) : Option (List Char) :=
  if index = 0 then some m.text else (m.groups.lookup index).map (·.text)

/-- The text of a group, or no text. -/
def groupText (m : Match) (index : Nat) : List Char :=
  (m.group? index).getD []

end Match

/-- A piece of a text: a character outside of all matches, or a match. -/
inductive Piece where
  | plain (c : Char)
  | found (m : Match)

namespace Piece

/-- The match, if the piece is one. -/
def match? : Piece → Option Match
  | plain _ => none
  | found m => some m

/-- The text that stands for a piece, given the one that stands for a match. -/
def replace (f : Match → List Char) : Piece → List Char
  | plain c => [c]
  | found m => f m

/-- The text of a piece. -/
def text : Piece → List Char :=
  replace Match.text

end Piece

namespace Pattern

/-- The match at a place. -/
def matchAt? (p : Pattern) (s : Cursor) : Option Match :=
  p.matchThen (fun t => some ⟨s.offset, s.rest.take (t.offset - s.offset), t.groups⟩) s

/-- The match at a place that counts: an empty one does not, directly behind another match. -/
def counted? (p : Pattern) (adjacent : Bool) (s : Cursor) : Option Match :=
  (p.matchAt? s).filter fun m => !(adjacent && m.text.isEmpty)

/-- The pieces of a text from a place on. The first number is that of the characters which belong to
the match found last; the mark says whether the place is directly behind it. -/
def piecesFrom (p : Pattern) :
    Nat → Bool → Nat → Option Char → List Char → List Piece
  | _, adjacent, offset, before, [] =>
    match p.counted? adjacent ⟨offset, before, [], []⟩ with
    | some m => [.found m]
    | none => []
  | skip + 1, _, offset, _, c :: rest => piecesFrom p skip true (offset + 1) (some c) rest
  | 0, adjacent, offset, before, c :: rest =>
    match p.counted? adjacent ⟨offset, before, c :: rest, []⟩ with
    | none => .plain c :: piecesFrom p 0 false (offset + 1) (some c) rest
    | some m =>
      if m.text.isEmpty then
        .found m :: .plain c :: piecesFrom p 0 false (offset + 1) (some c) rest
      else .found m :: piecesFrom p (m.text.length - 1) true (offset + 1) (some c) rest

/-- The pieces of a text. -/
def pieces (p : Pattern) (text : List Char) : List Piece :=
  p.piecesFrom 0 false 0 none text

/-- All matches in a text. -/
def findAll (p : Pattern) (text : List Char) : List Match :=
  (p.pieces text).filterMap Piece.match?

/-- The pattern matches somewhere in the text. -/
def occursIn (p : Pattern) (text : List Char) : Bool :=
  (p.pieces text).any fun piece => piece.match?.isSome

/-- The text with all matches replaced. -/
def replaceAll (p : Pattern) (f : Match → List Char) (text : List Char) : List Char :=
  (p.pieces text).flatMap (Piece.replace f)

end Pattern

end Raceway
