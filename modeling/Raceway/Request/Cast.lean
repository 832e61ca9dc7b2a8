import Raceway.Op.Call
import Raceway.Text.Blank
/-!
# Casting the text of a group

The text that a rule captures is cast to the type that the rule asks for: a text, an integer, a
number, a truth value or a list of integers. The blanks around it do not count.

## Main definitions

* `Raceway.CaptureType`: the types.
* `Raceway.CaptureType.cast?`: the argument that a text stands for.
-/

namespace Raceway

open Text Decimal

/-- What a captured text is cast to. -/
inductive CaptureType where
  | string
  | int
  | float
  | bool
  | intList
deriving DecidableEq, Repr

namespace CaptureType

/-- The name of a type. -/
def name : CaptureType → String
  | string => "string"
  | int => "int"
  | float => "float"
  | bool => "bool"
  | intList => "int_list"

/-- The type with the given name; the one of texts has a short name too. -/
def ofName? (s : String) : Option CaptureType :=
  if s == "str" then some string
  else [string, int, float, bool, intList].find? (·.name == s)

/-! ### Integers -/

/-- The text without the given sign in front, if it is there. -/
def dropSign (sign : Char) : List Char → List Char
  | c :: rest => if c = sign then rest else c :: rest
  | [] => []

/-- An integer in decimal digits, within 64 bits. A plus may stand in front, and a minus behind
it. -/
def readInt? (text : List Char) : Option Int :=
  let number := dropSign '+' text
  let digits := dropSign '-' number
  if digits ≠ [] ∧ digits.all Char.isDigit then Decimal.readInt? number else none

/-- The greatest distance between the ends of a range in a list. -/
def maxSpan : Int := 10000

/-- The integers from one to another, both included, in ascending order. -/
def intRange (a b : Int) : List Int :=
  (List.range ((max a b - min a b).toNat + 1)).map fun (i : Nat) => min a b + i

/-- The integers of a range, unless its ends are too far apart. -/
def rangeItems? (low high : List Char) : Option (List Int) := do
  let a ← readInt? low
  let b ← readInt? high
  if max a b - min a b > maxSpan then none else some (intRange a b)

/-- The integers of an item of a list: one integer, or a range with a hyphen behind its lower end.
-/
def items? (item : List Char) : Option (List Int) :=
  match item.span (· != '-') with
  | (c :: low, '-' :: high) => rangeItems? (c :: low) high
  | _ => (readInt? item).map fun n => [n]

/-- A comma is as good as a space. -/
def commaToSpace (c : Char) : Char :=
  if c = ',' then ' ' else c

/-- The items of a list: its words, except for the word `and`. -/
def listWords (text : List Char) : List (List Char) :=
  (words (text.map commaToSpace)).filter fun w => !isWord "and" w

/-- The integers of a list, which has at least one. -/
def readInts? (text : List Char) : Option (List Int) := do
  let parts ← (listWords text).mapM items?
  if parts.flatten = [] then none else some parts.flatten

/-! ### Casting -/

/-- The words for a truth value, in any letter case. -/
def readBool? (text : List Char) : Option Bool :=
  if ["true", "yes", "on", "1"].any (isWord · text) then some true
  else if ["false", "no", "off", "0"].any (isWord · text) then some false
  else none

/-- A finite number. -/
def readFinite? (text : List Char) : Option Float :=
  (readDouble? text).filter Float.isFinite

/-- The argument that a text stands for. -/
def cast? (type : CaptureType) (text : List Char) : Option Arg :=
  let text := trim text
  match type with
  | string => some (.str (String.ofList text))
  | int => (readInt? text).map .int
  | float => (readFinite? text).map .float
  | bool => (readBool? text).map .bool
  | intList => (readInts? text).map .list

end CaptureType

end Raceway
