import Raceway.Text.Folding
import Raceway.Text.Property
/-!
# Classes of characters in patterns

A class is a set of characters, built from single characters, ranges and properties by the set
operations. A class can be closed under letter case: it then holds every character that is equal, up
to letter case, to one of the class.

## Main definitions

* `Raceway.Property`: a property of characters.
* `Raceway.CharClass` and `Raceway.CharClass.has`: a class, and what is in it.
-/

namespace Raceway

open Text

/-- A property of characters. -/
inductive Property where
  /-- Decimal digits of any script. -/
  | digit
  /-- White space. -/
  | blank
  /-- What words are made of. -/
  | word
  /-- Letters in the wide sense. -/
  | alphabetic
  | lowercase
  | uppercase
  | joinControl
  /-- ASCII digits. -/
  | asciiDigit
  /-- ASCII white space. -/
  | asciiBlank
  /-- ASCII letters, digits and the underscore. -/
  | asciiWord
  /-- The general categories listed. -/
  | category (cs : List Category)
deriving DecidableEq

/-- The character has the property. -/
def Property.has : Property → Char → Bool
  | digit, c => isDecimalDigit c
  | blank, c => isBlank c
  | word, c => isWordChar c
  | alphabetic, c => isAlphabetic c
  | lowercase, c => isLowercase c
  | uppercase, c => isUppercase c
  | joinControl, c => isJoinControl c
  | asciiDigit, c => c.isDigit
  | asciiBlank, c => c == ' ' || (0x09 ≤ c.toNat && c.toNat ≤ 0x0D)
  | asciiWord, c => c.isAlphanum || c == '_'
  | category cs, c => cs.contains (Text.category c)

/-- A set of characters. -/
inductive CharClass where
  /-- One character. -/
  | single (c : Char)
  /-- The characters from one to another, both included. -/
  | range (low high : Char)
  /-- The characters with a property. -/
  | property (p : Property)
  /-- No character. -/
  | nothing
  /-- The characters that are not in a class. -/
  | compl (a : CharClass)
  /-- The characters of either class. -/
  | union (a b : CharClass)
  /-- The characters of both classes. -/
  | inter (a b : CharClass)
  /-- The characters of the first class that are not in the second. -/
  | diff (a b : CharClass)
  /-- The characters of one class that are not in the other. -/
  | symmDiff (a b : CharClass)
  /-- The characters that are equal, up to letter case, to one of a class. -/
  | folded (a : CharClass)
  /-- The same up to the case of ASCII letters alone. -/
  | asciiFolded (a : CharClass)
deriving DecidableEq

/-- The characters that are equal to a character up to the case of ASCII letters. -/
def asciiOrbit (c : Char) : List Char :=
  if c.isAlpha then [c.toLower, c.toUpper] else [c]

namespace CharClass

/-- The character is in the class. -/
def has : CharClass → Char → Bool
  | single d, c => c == d
  | range low high, c => low ≤ c && c ≤ high
  | property p, c => p.has c
  | nothing, _ => false
  | compl a, c => !a.has c
  | union a b, c => a.has c || b.has c
  | inter a b, c => a.has c && b.has c
  | diff a b, c => a.has c && !b.has c
  | symmDiff a b, c => a.has c != b.has c
  | folded a, c => (orbit c).any a.has
  | asciiFolded a, c => (asciiOrbit c).any a.has

/-- The characters of any of some classes. -/
def unions (classes : List CharClass) : CharClass :=
  classes.foldr union nothing

/-- The characters of a list. -/
def ofList (cs : List Char) : CharClass :=
  unions (cs.map single)

/-- Every character. -/
def everything : CharClass :=
  compl nothing

/-- The characters that are equal to one character up to letter case. -/
def anyCase (c : Char) : CharClass :=
  ofList (orbit c)

/-- Membership in a union. -/
theorem has_unions (classes : List CharClass) (c : Char) :
    (unions classes).has c = classes.any (·.has c) := by
  induction classes with
  | nil => rfl
  | cons a rest ih => rw [unions, List.foldr_cons, has, List.any_cons, ← ih]; rfl

/-- Membership in a list of characters. -/
theorem has_ofList (cs : List Char) (c : Char) : (ofList cs).has c = cs.contains c := by
  rw [ofList, has_unions, List.any_map, List.contains_eq_any_beq]
  rfl

end CharClass

end Raceway
