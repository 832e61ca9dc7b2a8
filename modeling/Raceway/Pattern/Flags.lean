import Raceway.Pattern.Basic
import Raceway.Pattern.Names
/-!
# Flags of written patterns

Flags change what the parts of a written pattern mean. They hold from the place where they are set
to the end of the group around it. A part that the flags forbid is still read to its end, and the
first such part is reported only if the rest of the pattern is well formed.

## Main definitions

* `Raceway.Flags`: the flags.
* `Raceway.Flags.literal`, `Raceway.Flags.dot` and so on: the parts under given flags.
-/

namespace Raceway

/-- What changes the meaning of a written pattern. -/
structure Flags where
  /-- Letters stand for both cases. -/
  ignoreCase : Bool := false
  /-- Line anchors hold at each line. -/
  multiLine : Bool := false
  /-- The dot stands for line ends too. -/
  dotAll : Bool := false
  /-- Repetition is short by default, and long with a mark. -/
  swapGreed : Bool := false
  /-- Classes are those of all scripts. -/
  unicode : Bool := true
  /-- A carriage return ends a line too. -/
  returns : Bool := false
  /-- Spacing and comments in the pattern are passed over. -/
  spaced : Bool := false
deriving DecidableEq

/-- A part of a pattern that its flags or the known properties forbid. -/
inductive MeaningFault where
  /-- A property is not allowed with ASCII classes. -/
  | notAllowed
  /-- The part stands for bytes that are no character. -/
  | notText
  /-- No property has the name. -/
  | unknownProperty
  /-- The property has no such value. -/
  | unknownValue
  /-- The pattern is too large. -/
  | tooLarge
deriving DecidableEq

/-- The wording of a fault. -/
def MeaningFault.text : MeaningFault → String
  | notAllowed => "Unicode not allowed here"
  | notText => "pattern can match invalid UTF-8"
  | unknownProperty => "Unicode property not found"
  | unknownValue => "Unicode property value not found"
  | tooLarge => "Compiled regex exceeds size limit of 10485760 bytes."

namespace Flags

/-- Set or unset the flag with the given letter, if there is one. -/
def set? (f : Flags) (on : Bool) : Char → Option Flags
  | 'i' => some { f with ignoreCase := on }
  | 'm' => some { f with multiLine := on }
  | 's' => some { f with dotAll := on }
  | 'U' => some { f with swapGreed := on }
  | 'u' => some { f with unicode := on }
  | 'R' => some { f with returns := on }
  | 'x' => some { f with spaced := on }
  | _ => none

/-- Close a class under letter case, if case is ignored. -/
def fold (f : Flags) (a : CharClass) : CharClass :=
  if !f.ignoreCase then a else if f.unicode then .folded a else .asciiFolded a

/-- A character that stands for itself. -/
def literal (f : Flags) (c : Char) : CharClass :=
  if !f.ignoreCase then .single c
  else if f.unicode then .anyCase c
  else .ofList (asciiOrbit c).eraseDups

/-- The dot. -/
def dot (f : Flags) : CharClass :=
  if f.dotAll then .everything
  else if f.returns then .compl (.ofList ['\r', '\n'])
  else .compl (.single '\n')

/-- The anchor of a start. -/
def startAnchor (f : Flags) : Assertion :=
  if !f.multiLine then .textStart else if f.returns then .returnStart else .lineStart

/-- The anchor of an end. -/
def endAnchor (f : Flags) : Assertion :=
  if !f.multiLine then .textEnd else if f.returns then .returnEnd else .lineEnd

/-- What words are made of. -/
def wordProperty (f : Flags) : Property :=
  if f.unicode then .word else .asciiWord

/-- The property of a class with the given lower case letter, and whether there is one. -/
def letterProperty? (f : Flags) : Char → Option Property
  | 'd' => some (if f.unicode then .digit else .asciiDigit)
  | 's' => some (if f.unicode then .blank else .asciiBlank)
  | 'w' => some f.wordProperty
  | _ => none

end Flags

end Raceway
