import Raceway.Decimal.Binary
/-!
# Reading integers and doubles

An integer is an optional sign and decimal digits, in the range of 64-bit signed words. A double is
an optional sign and either a decimal numeral with an optional point and exponent, or the name of
infinity or of the value that is not a number. Digits are ASCII digits, and the whole text has to
be used.

## Main definitions

* `Raceway.Decimal.readInt?`: an integer of at most 64 bits.
* `Raceway.Decimal.readDouble?`: the double nearest to a numeral.
-/

namespace Raceway.Decimal

/-! ### Digits and signs -/

/-- The value of an ASCII digit. -/
def digitValue (c : Char) : Nat :=
  c.toNat - '0'.toNat

/-- The natural number that decimal digits write. -/
def digitsValue (digits : List Char) : Nat :=
  digits.foldl (fun n c => 10 * n + digitValue c) 0

/-- The least integer of a 64-bit signed word. -/
def minInt64 : Int := -0x8000000000000000

/-- The greatest integer of a 64-bit signed word. -/
def maxInt64 : Int := 0x7FFFFFFFFFFFFFFF

/-- Take the sign in front of a numeral: whether it is a minus, and what follows. -/
def takeSign : List Char → Bool × List Char
  | '-' :: rest => (true, rest)
  | '+' :: rest => (false, rest)
  | text => (false, text)

/-- The integer with the given sign and magnitude. -/
def signed (negative : Bool) (n : Nat) : Int :=
  if negative then -(n : Int) else n

/-- Read an integer: at most one sign, at least one digit, within 64 bits. -/
def readInt? (text : List Char) : Option Int :=
  let (negative, digits) := takeSign text
  if digits ≠ [] ∧ digits.all Char.isDigit then
    let n := signed negative (digitsValue digits)
    if minInt64 ≤ n ∧ n ≤ maxInt64 then some n else none
  else none

/-! ### Doubles -/

/-- The text has the given letters, whatever their ASCII case. -/
def isWord (word : String) (text : List Char) : Bool :=
  text.map Char.toLower == word.toList

/-- Read the exponent part of a numeral, which is absent from an empty text. -/
def readExponent? : List Char → Option Int
  | [] => some 0
  | c :: rest =>
    if c = 'e' ∨ c = 'E' then
      let (negative, digits) := takeSign rest
      if digits ≠ [] ∧ digits.all Char.isDigit then some (signed negative (digitsValue digits))
      else none
    else none

/-- Split a text behind its leading digits. -/
def spanDigits (text : List Char) : List Char × List Char :=
  (text.takeWhile Char.isDigit, text.dropWhile Char.isDigit)

/-- Split the fraction of a numeral, which a point opens, from what follows it. -/
def spanFraction : List Char → List Char × List Char
  | '.' :: rest => spanDigits rest
  | text => ([], text)

/-- Read an unsigned decimal numeral as digits and an exponent of ten: at least one digit, before or
behind the point. -/
def readNumeral? (text : List Char) : Option (Nat × Int) :=
  let (whole, rest) := spanDigits text
  let (fraction, rest) := spanFraction rest
  if whole = [] ∧ fraction = [] then none
  else
    (readExponent? rest).map fun exp =>
      (digitsValue (whole ++ fraction), exp - fraction.length)

/-- The double of the given sign that is infinite. -/
def infinite (negative : Bool) : Float :=
  if negative then -(1.0 / 0.0) else 1.0 / 0.0

/-- Read a double: a sign and a numeral, rounded to nearest, or a sign and one of the names
`inf`, `infinity` and `nan` in any letter case. -/
def readDouble? (text : List Char) : Option Float :=
  let (negative, body) := takeSign text
  if isWord "inf" body || isWord "infinity" body then some (infinite negative)
  else if isWord "nan" body then some (0.0 / 0.0)
  else (readNumeral? body).map fun (digits, exp) => nearestDouble negative digits exp

/-- The integer of a 64-bit signed word closest to the given one. -/
def clampInt64 (n : Int) : Int :=
  max minInt64 (min maxInt64 n)

end Raceway.Decimal
