import Raceway.Decimal.Shortest
/-!
# JSON documents

A document is a tree of nodes. Objects keep the order of their members. Numbers are integers,
doubles or singles, which differ in how they are written: a double or a single is written with the
fewest digits that identify it in its own format, always with a point, and positionally while its
exponent of ten is from -5 to 15.

## Main definitions

* `Raceway.Json.Node`: a document.
* `Raceway.Json.Node.compact` and `Raceway.Json.Node.pretty`: a document as text.
-/

namespace Raceway.Json

open Decimal

/-- A JSON document. -/
inductive Node where
  | null
  | bool (b : Bool)
  | int (n : Int)
  | double (x : Float)
  | single (x : Float32)
  | str (s : String)
  | list (items : List Node)
  | object (members : List (String × Node))

/-! ### Numbers and strings -/

/-- An integer in decimal digits. -/
def intText (n : Int) : String :=
  (if n < 0 then "-" else "") ++ String.ofList (natText n.natAbs)

/-- Digits in scientific notation: one digit, the others behind a point, and an exponent with its
sign. -/
def scientific (digits : List Char) (exp : Int) : List Char :=
  let mantissa := match digits with
    | [] => ['0']
    | [d] => [d]
    | d :: rest => d :: '.' :: rest
  mantissa ++ ['e', if exp < 0 then '-' else '+'] ++ natText exp.natAbs

/-- Digits in positional notation, with a zero behind the point of a whole number. -/
def pointed (digits : List Char) (point : Int) : List Char :=
  let text := positional digits point
  if digits.length ≤ point then text ++ ['.', '0'] else text

/-- The text of a positive magnitude: positional while the exponent of ten is from -5 to 15. Ties
between two equally short decimals go to the even one. -/
def magnitudeText (b : Binary) : List Char :=
  let (digits, point) := (b.shortest .toEven).significant
  if -5 ≤ point - 1 ∧ point - 1 ≤ 15 then pointed digits point else scientific digits (point - 1)

/-- The text of a magnitude with its sign. -/
def numberText (negative : Bool) (b : Binary) : String :=
  (if negative then "-" else "") ++
    if b.mant = 0 then "0.0" else String.ofList (magnitudeText b)

/-- The text of a double; what is no finite number is null. -/
def doubleText (x : Float) : String :=
  if x.isFinite then numberText (negativeDouble x) (Binary.ofDouble x) else "null"

/-- The text of a single; what is no finite number is null. -/
def singleText (x : Float32) : String :=
  if x.isFinite then numberText (negativeSingle x) (Binary.ofSingle x) else "null"

/-- A hexadecimal digit in lower case. -/
def hexDigit (n : Nat) : Char :=
  (Nat.toDigits 16 (n % 16)).headD '0'

/-- A character of a string: quotes, backslashes and control characters are escaped. -/
def escapeChar (c : Char) : List Char :=
  if c = '"' then ['\\', '"']
  else if c = '\\' then ['\\', '\\']
  else if c.toNat ≥ 0x20 then [c]
  else if c.toNat = 0x08 then ['\\', 'b']
  else if c = '\t' then ['\\', 't']
  else if c = '\n' then ['\\', 'n']
  else if c.toNat = 0x0C then ['\\', 'f']
  else if c = '\r' then ['\\', 'r']
  else ['\\', 'u', '0', '0', hexDigit (c.toNat / 16), hexDigit c.toNat]

/-- A string in quotes. -/
def quoted (s : String) : String :=
  String.ofList (['"'] ++ s.toList.flatMap escapeChar ++ ['"'])

namespace Node

/-! ### Compact text -/

mutual

/-- A document without any spacing. -/
def compact : Node → String
  | null => "null"
  | bool b => if b then "true" else "false"
  | int n => intText n
  | double x => doubleText x
  | single x => singleText x
  | str s => quoted s
  | list items => "[" ++ String.intercalate "," (compactItems items) ++ "]"
  | object members => "\x7b" ++ String.intercalate "," (compactMembers members) ++ "\x7d"

/-- The items of a list without any spacing. -/
def compactItems : List Node → List String
  | [] => []
  | item :: rest => item.compact :: compactItems rest

/-- The members of an object without any spacing. -/
def compactMembers : List (String × Node) → List String
  | [] => []
  | (key, value) :: rest => (quoted key ++ ":" ++ value.compact) :: compactMembers rest

end

/-! ### Indented text -/

/-- A line break and the indentation of a level. -/
def lineBreak (level : Nat) : String :=
  String.ofList ('\n' :: List.replicate (2 * level) ' ')

/-- Texts between two brackets, each on a line of the next level. -/
def bracketed (opening closing : String) (level : Nat) (texts : List String) : String :=
  if texts.isEmpty then opening ++ closing
  else
    opening ++ lineBreak (level + 1) ++ String.intercalate ("," ++ lineBreak (level + 1)) texts
      ++ lineBreak level ++ closing

mutual

/-- A document at a level of indentation. -/
def prettyAt (level : Nat) : Node → String
  | list items => bracketed "[" "]" level (prettyItems level items)
  | object members => bracketed "\x7b" "\x7d" level (prettyMembers level members)
  | null => "null"
  | bool b => if b then "true" else "false"
  | int n => intText n
  | double x => doubleText x
  | single x => singleText x
  | str s => quoted s

/-- The items of a list at a level of indentation. -/
def prettyItems (level : Nat) : List Node → List String
  | [] => []
  | item :: rest => item.prettyAt (level + 1) :: prettyItems level rest

/-- The members of an object at a level of indentation. -/
def prettyMembers (level : Nat) : List (String × Node) → List String
  | [] => []
  | (key, value) :: rest =>
    (quoted key ++ ": " ++ value.prettyAt (level + 1)) :: prettyMembers level rest

end

/-- A document with a line for each item and member, indented by two spaces a level. -/
def pretty (n : Node) : String :=
  n.prettyAt 0

end Node

end Raceway.Json
