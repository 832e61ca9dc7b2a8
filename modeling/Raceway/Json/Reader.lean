import Raceway.Json.Node
/-!
# Reading JSON

A reader takes a document of a known shape off the front of a text. It keeps the line and the column
of its place in the text, for its errors; columns count bytes. An error stands either at the place
reached, or at the character that comes next.

What a document holds is not read twice: a reader of a shape checks grammar and shape in one pass,
so that the first fault in the text is the one reported.

## Main definitions

* `Raceway.Json.Reader`: a reader, and `Raceway.Json.Reader.run`, which reads a whole text.
* `Raceway.Json.Reader.word`, `double`, `single`, `str`, `elements`, `dict`, `record`: shapes.
* `Raceway.Json.Reader.node`: any document, nested up to a limit.
* `Raceway.Json.Reader.skip`: any document, without keeping it.
-/

namespace Raceway.Json

/-! ### Places and errors -/

/-- A place in a text: its line, its column in bytes, and what follows. -/
structure Place where
  line : Nat
  column : Nat
  rest : List Char

/-- The start of a text. -/
def Place.start (text : List Char) : Place :=
  ⟨1, 0, text⟩

/-- A line and a column. -/
structure Position where
  line : Nat
  column : Nat
deriving DecidableEq, Repr

/-- The position of a place. -/
def Place.position (p : Place) : Position :=
  ⟨p.line, p.column⟩

/-- The position one byte further on. -/
def Place.nextPosition (p : Place) : Position :=
  match p.rest with
  | [] => p.position
  | '\n' :: _ => ⟨p.line + 1, 0⟩
  | _ => ⟨p.line, p.column + 1⟩

/-- The place behind the next character. -/
def Place.advance (p : Place) : Place :=
  match p.rest with
  | [] => p
  | '\n' :: rest => ⟨p.line + 1, 0, rest⟩
  | c :: rest => ⟨p.line, p.column + c.utf8Size, rest⟩

/-- What is wrong with a document. -/
inductive Fault where
  | endOfList
  | endOfObject
  | endOfString
  | endOfValue
  | expectedColon
  | expectedListEnd
  | expectedObjectEnd
  | expectedIdent
  | expectedValue
  | invalidEscape
  | invalidNumber
  | numberOutOfRange
  | controlCharacter
  | keyNotString
  | loneSurrogate
  | trailingComma
  | trailingCharacters
  | unfinishedEscape
  | nestedTooDeep
  /-- The value found is not of the shape expected. -/
  | wrongType (found expected : String)
  /-- The value found is of the right type but not in its range. -/
  | wrongValue (found expected : String)
  | wrongLength (length : Nat) (expected : String)
  | missingField (name : String)
  | duplicateField (name : String)
  | unknownVariant
deriving DecidableEq

/-- The wording of a fault. -/
def Fault.text : Fault → String
  | endOfList => "EOF while parsing a list"
  | endOfObject => "EOF while parsing an object"
  | endOfString => "EOF while parsing a string"
  | endOfValue => "EOF while parsing a value"
  | expectedColon => "expected `:`"
  | expectedListEnd => "expected `,` or `]`"
  | expectedObjectEnd => "expected `,` or `\x7d`"
  | expectedIdent => "expected ident"
  | expectedValue => "expected value"
  | invalidEscape => "invalid escape"
  | invalidNumber => "invalid number"
  | numberOutOfRange => "number out of range"
  | controlCharacter => "control character (\\u0000-\\u001F) found while parsing a string"
  | keyNotString => "key must be a string"
  | loneSurrogate => "lone leading surrogate in hex escape"
  | trailingComma => "trailing comma"
  | trailingCharacters => "trailing characters"
  | unfinishedEscape => "unexpected end of hex escape"
  | nestedTooDeep => "recursion limit exceeded"
  | wrongType found expected => s!"invalid type: {found}, expected {expected}"
  | wrongValue found expected => s!"invalid value: {found}, expected {expected}"
  | wrongLength length expected => s!"invalid length {length}, expected {expected}"
  | missingField name => s!"missing field `{name}`"
  | duplicateField name => s!"duplicate field `{name}`"
  | unknownVariant => "unknown variant"

/-- A fault and its position. -/
structure ReadError where
  /-- The fault. -/
  fault : Fault
  /-- Where it was noticed. -/
  position : Position
deriving DecidableEq

/-- The wording of an error. -/
def ReadError.message (e : ReadError) : String :=
  s!"{e.fault.text} at line {e.position.line} column {e.position.column}"

/-- A reader of values from the front of a text. -/
abbrev Reader := StateT Place (Except ReadError)

namespace Reader

/-! ### Steps -/

/-- Fail at the place reached. -/
def failHere {α : Type} (f : Fault) : Reader α := do
  throw ⟨f, (← get).position⟩

/-- Fail at the next character. -/
def failNext {α : Type} (f : Fault) : Reader α := do
  throw ⟨f, (← get).nextPosition⟩

/-- The next character, which stays in front. -/
def peek : Reader (Option Char) := do
  return (← get).rest.head?

/-- Pass over the next character. -/
def advance : Reader Unit :=
  modify Place.advance

/-- Take the next character. -/
def next : Reader (Option Char) := do
  let c ← peek
  advance
  return c

/-- The character is spacing between tokens. -/
def isSpacing (c : Char) : Bool :=
  c == ' ' || c == '\n' || c == '\t' || c == '\r'

/-- The place behind leading spacing. -/
def skipSpacing (p : Place) : Place :=
  (p.rest.takeWhile isSpacing).foldl (fun p _ => p.advance) p

/-- Pass over spacing and look at the next character. -/
def token : Reader (Option Char) := do
  modify skipSpacing
  peek

/-- Pass over spacing and look at the character that a value starts with. -/
def valueToken : Reader Char := do
  match ← token with
  | some c => return c
  | none => failNext .endOfValue

/-- Take the given characters. -/
def ident : List Char → Reader Unit
  | [] => return
  | c :: rest => do
    match ← next with
    | none => failHere .endOfValue
    | some d => if c = d then ident rest else failHere .expectedIdent

/-! ### Numbers -/

/-- A number: a natural number or a negative integer within 64 bits, or a double. -/
inductive Number where
  | nat (n : UInt64)
  | neg (n : Int)
  | double (x : Float)

/-- Take digits into a natural number that stays below a bound. The count of digits taken is given
too, and whether a further digit does not fit. -/
def takeDigits (bound n count : Nat) : List Char → Nat × Nat × Bool
  | [] => (n, count, false)
  | c :: rest =>
    if c.isDigit then
      let m := 10 * n + (c.toNat - '0'.toNat)
      if m < bound then takeDigits bound m (count + 1) rest else (n, count, true)
    else (n, count, false)

/-- Pass over a number of characters. -/
def advanceBy (n : Nat) : Reader Unit :=
  modify fun p => n.repeat Place.advance p

/-- Take digits in front, as far as the number stays below a bound: the number, how many digits were
taken, and whether a further digit does not fit. -/
def digits (bound n : Nat) : Reader (Nat × Nat × Bool) := do
  let (m, count, excess) := takeDigits bound n 0 (← get).rest
  advanceBy count
  return (m, count, excess)

/-- Pass excess digits: how many there were. -/
def skipDigits : Reader Nat := do
  let count := ((← get).rest.takeWhile Char.isDigit).length
  advanceBy count
  return count

/-- A power of ten as a double. -/
def powerOfTen (k : Nat) : Float :=
  Decimal.nearestDouble false 1 k

/-- Scale a double down by steps of `10 ^ 308`, for an exponent below -308. -/
def scaleDown (steps : Nat) (x : Float) : Float :=
  steps.repeat (fun x => x / powerOfTen 308) x

/-- The double of digits and an exponent of ten, by one multiplication or by divisions; none if it
is too large. -/
def scaled? (n : Nat) (exp : Int) : Option Float :=
  let x := (UInt64.ofNat n).toFloat
  if exp ≥ 0 then
    if exp ≤ 308 then
      let y := x * powerOfTen exp.toNat
      if y.isInf then none else some y
    else if x == 0 then some x
    else none
  else
    let k := (-exp).toNat
    let steps := (k - 1) / 308
    if steps ≥ 2 then some 0 else some (scaleDown steps x / powerOfTen (k - 308 * steps))

/-- The number of a sign, digits and an exponent of ten. -/
def scaled (positive : Bool) (n : Nat) (exp : Int) : Reader Number := do
  match scaled? n exp with
  | some x => return .double (if positive then x else -x)
  | none => failHere .numberOutOfRange

/-- Read an exponent behind its letter, for digits that have an exponent already. -/
def exponent (positive : Bool) (n : Nat) (exp : Int) : Reader Number := do
  advance
  let sign ← peek
  if sign = some '+' ∨ sign = some '-' then advance
  match ← next with
  | none => failHere .endOfValue
  | some c =>
    if !c.isDigit then failHere .invalidNumber
    else
      let (value, _, excess) ← digits 0x80000000 (c.toNat - '0'.toNat)
      if !excess then scaled positive n (if sign = some '-' then exp - value else exp + value)
      else if n ≠ 0 ∧ sign ≠ some '-' then do
        advance
        failHere .numberOutOfRange
      else do
        let _ ← skipDigits
        return .double (if positive then 0 else -0.0)

/-- Go on with an exponent, if there is one. -/
def orExponent (positive : Bool) (n : Nat) (exp : Int) : Reader Number := do
  match ← peek with
  | some 'e' | some 'E' => exponent positive n exp
  | _ => scaled positive n exp

/-- Read a fraction behind the point, for digits that have an exponent already. Digits that do not
fit are passed over. -/
def fraction (positive : Bool) (n : Nat) (exp : Int) : Reader Number := do
  advance
  let (m, count, excess) ← digits UInt64.size n
  if excess then
    let _ ← skipDigits
    orExponent positive m (exp - count)
  else if count = 0 then
    match ← peek with
    | some _ => failNext .invalidNumber
    | none => failNext .endOfValue
  else orExponent positive m (exp - count)

/-- Go on behind the digits of an integer that does not fit in 64 bits. -/
def longInteger (positive : Bool) (n : Nat) : Reader Number := do
  let exp ← skipDigits
  match ← peek with
  | some '.' => fraction positive n exp
  | _ => orExponent positive n exp

/-- Go on behind the digits of an integer. -/
def afterInteger (positive : Bool) (n : Nat) : Reader Number := do
  match ← peek with
  | some '.' => fraction positive n 0
  | some 'e' | some 'E' => exponent positive n 0
  | _ =>
    if positive then return .nat (UInt64.ofNat n)
    else if n = 0 ∨ n > 0x8000000000000000 then return .double (-(UInt64.ofNat n).toFloat)
    else return .neg (-(n : Int))

/-- Read an unsigned number. -/
def unsigned (positive : Bool) : Reader Number := do
  match ← next with
  | none => failHere .endOfValue
  | some c =>
    if c = '0' then
      if (← peek).any Char.isDigit then failNext .invalidNumber else afterInteger positive 0
    else if c.isDigit then do
      let (n, _, excess) ← digits UInt64.size (c.toNat - '0'.toNat)
      if excess then longInteger positive n else afterInteger positive n
    else failHere .invalidNumber

/-- Read a number that starts with the given character. -/
def number (c : Char) : Reader Number := do
  if c = '-' then
    advance
    unsigned false
  else unsigned true

/-! ### Strings -/

/-- The value of a hexadecimal digit. -/
def hexValue? (c : Char) : Option Nat :=
  if c.isDigit then some (c.toNat - '0'.toNat)
  else if 'a' ≤ c ∧ c ≤ 'f' then some (c.toNat - 'a'.toNat + 10)
  else if 'A' ≤ c ∧ c ≤ 'F' then some (c.toNat - 'A'.toNat + 10)
  else none

/-- The value of four hexadecimal digits. -/
def hexValue4? : List Char → Option Nat
  | [a, b, c, d] => do
    return (((← hexValue? a) * 16 + (← hexValue? b)) * 16 + (← hexValue? c)) * 16 + (← hexValue? d)
  | _ => none

/-- Take four hexadecimal digits. -/
def hex4 : Reader Nat := do
  let four := (← get).rest.take 4
  advanceBy four.length
  if four.length < 4 then failHere .endOfString
  else
    match hexValue4? four with
    | some n => return n
    | none => failHere .invalidEscape

/-- Take the given character of a second escape, which has to follow a leading surrogate. -/
def escapeMark (mark : Char) : Reader Unit := do
  match ← peek with
  | none => failHere .endOfString
  | some c => do
    advance
    if c ≠ mark then failHere .unfinishedEscape

/-- Take the code of an escaped character, which may be written as a pair of surrogates. -/
def escapedCode : Reader Char := do
  let n ← hex4
  if 0xDC00 ≤ n ∧ n ≤ 0xDFFF then failHere .loneSurrogate
  else if n < 0xD800 ∨ 0xDBFF < n then return Char.ofNat n
  else do
    escapeMark '\\'
    escapeMark 'u'
    let m ← hex4
    if m < 0xDC00 ∨ 0xDFFF < m then failHere .loneSurrogate
    else return Char.ofNat ((n - 0xD800) * 0x400 + (m - 0xDC00) + 0x10000)

/-- The character of a short escape. -/
def shortEscape? : Char → Option Char
  | '"' => some '"'
  | '\\' => some '\\'
  | '/' => some '/'
  | 'b' => some (Char.ofNat 0x08)
  | 'f' => some (Char.ofNat 0x0C)
  | 'n' => some '\n'
  | 'r' => some '\r'
  | 't' => some '\t'
  | _ => none

/-- Take an escape behind its backslash. -/
def escape : Reader Char := do
  match ← next with
  | none => failHere .endOfString
  | some 'u' => escapedCode
  | some c =>
    match shortEscape? c with
    | some d => return d
    | none => failHere .invalidEscape

/-- Take an escape behind its backslash; whether a code is one of a character does not matter. -/
def skipEscape : Reader Char := do
  match ← next with
  | none => failHere .endOfString
  | some 'u' => do
    let _ ← hex4
    return 'u'
  | some c => if (shortEscape? c).isSome then return c else failHere .invalidEscape

/-- Take the characters of a string up to its closing quote, behind those taken so far, which come
last first. The fuel bounds the number of characters. -/
def stringTail (escape : Reader Char) : Nat → List Char → Reader (List Char)
  | 0, _ => failHere .endOfString
  | fuel + 1, taken => do
    match ← next with
    | none => failHere .endOfString
    | some '"' => return taken.reverse
    | some '\\' => do
      let c ← escape
      stringTail escape fuel (c :: taken)
    | some c =>
      if c.toNat < 0x20 then failHere .controlCharacter else stringTail escape fuel (c :: taken)

/-- The number of characters that follow, and one. -/
def fuel : Reader Nat := do
  return (← get).rest.length + 1

/-- Read a string behind its opening quote. -/
def stringBody : Reader String := do
  return String.ofList (← stringTail escape (← fuel) [])

/-- Pass over a string behind its opening quote. -/
def skipString : Reader Unit := do
  let _ ← stringTail skipEscape (← fuel) []

/-! ### Passing over a document -/

/-- Pass over the exponent of a number, if there is one. -/
def skipExponent : Reader Unit := do
  match ← peek with
  | some 'e' | some 'E' => do
    advance
    let sign ← peek
    if sign = some '+' ∨ sign = some '-' then advance
    match ← next with
    | some c => if c.isDigit then let _ ← skipDigits else failHere .invalidNumber
    | none => failHere .invalidNumber
  | _ => return

/-- Pass over a number behind its sign. -/
def skipNumber : Reader Unit := do
  match ← next with
  | some '0' => if (← peek).any Char.isDigit then failNext .invalidNumber
  | some c => if c.isDigit then let _ ← skipDigits else failHere .invalidNumber
  | none => failHere .invalidNumber
  if (← peek) = some '.' then
    advance
    if (← skipDigits) = 0 then failNext .invalidNumber
  skipExponent

/-- Pass over a key and its colon. -/
def skipKey : Reader Unit := do
  match ← token with
  | some '"' => do
    advance
    skipString
  | some _ => failNext .keyNotString
  | none => failNext .endOfObject
  match ← token with
  | some ':' => advance
  | some _ => failNext .expectedColon
  | none => failNext .endOfObject

mutual

/-- Pass over a document, within the given fuel. -/
def skipWithin : Nat → Reader Unit
  | 0 => failNext .nestedTooDeep
  | fuel + 1 => do
    let c ← valueToken
    match c with
    | 'n' => advance; ident "ull".toList
    | 't' => advance; ident "rue".toList
    | 'f' => advance; ident "alse".toList
    | '-' => advance; skipNumber
    | '"' => advance; skipString
    | '[' => do
      advance
      match ← token with
      | some ']' => advance
      | some _ => skipItems fuel
      | none => failNext .endOfList
    | '\x7b' => do
      advance
      match ← token with
      | some '\x7d' => advance
      | some _ => skipMembers fuel
      | none => failNext .endOfObject
    | c => if c.isDigit then skipNumber else failNext .expectedValue

/-- Pass over the items of a list, from an item on, and the closing bracket. -/
def skipItems : Nat → Reader Unit
  | 0 => failNext .nestedTooDeep
  | fuel + 1 => do
    skipWithin fuel
    match ← token with
    | some ',' => advance; skipItems fuel
    | some ']' => advance
    | some _ => failNext .expectedListEnd
    | none => failNext .endOfList

/-- Pass over the members of an object, from a key on, and the closing brace. -/
def skipMembers : Nat → Reader Unit
  | 0 => failNext .nestedTooDeep
  | fuel + 1 => do
    skipKey
    skipWithin fuel
    match ← token with
    | some ',' => advance; skipMembers fuel
    | some '\x7d' => advance
    | some _ => failNext .expectedObjectEnd
    | none => failNext .endOfObject

end

/-- Pass over a document, whatever its depth. -/
def skip : Reader Unit := do
  skipWithin (2 * (← fuel))

/-! ### What was found instead -/

/-- A character inside a quotation of a string that was found. -/
def debugChar (c : Char) : List Char :=
  if c = '"' ∨ c = '\\' then ['\\', c]
  else if c = '\n' then ['\\', 'n']
  else if c = '\r' then ['\\', 'r']
  else if c = '\t' then ['\\', 't']
  else if c.toNat = 0 then ['\\', '0']
  else if c.toNat < 0x20 ∨ c.toNat = 0x7F then
    ['\\', 'u', '\x7b'] ++ Nat.toDigits 16 c.toNat ++ ['\x7d']
  else [c]

/-- A string that was found, in quotes. -/
def foundString (s : String) : String :=
  "string \"" ++ String.ofList (s.toList.flatMap debugChar) ++ "\""

/-- A number that was found. -/
def foundNumber : Number → String
  | .nat n => s!"integer `{n.toNat}`"
  | .neg n => s!"integer `{intText n}`"
  | .double x => s!"floating point `{doubleText x}`"

/-- Fail because the value that starts with the given character is not of the shape expected. A
value that is not a list or an object is read first, and may be faulty itself. -/
def unexpected {α : Type} (c : Char) (expected : String) : Reader α := do
  match c with
  | 'n' => advance; ident "ull".toList; failHere (.wrongType "null" expected)
  | 't' => advance; ident "rue".toList; failHere (.wrongType "boolean `true`" expected)
  | 'f' => advance; ident "alse".toList; failHere (.wrongType "boolean `false`" expected)
  | '"' => do
    advance
    let s ← stringBody
    failHere (.wrongType (foundString s) expected)
  | '[' => failHere (.wrongType "sequence" expected)
  | '\x7b' => failHere (.wrongType "map" expected)
  | c =>
    if c = '-' ∨ c.isDigit then do
      let n ← number c
      failHere (.wrongType (foundNumber n) expected)
    else failNext .expectedValue

/-! ### Scalars -/

/-- Read a number, or fail because another shape was found. -/
def numeric (expected : String) : Reader Number := do
  let c ← valueToken
  if c = '-' ∨ c.isDigit then number c else unexpected c expected

/-- Read a natural number of at most the given number of bits. -/
def word (bits : Nat) : Reader Nat := do
  let expected := s!"u{bits}"
  match ← numeric expected with
  | .nat n =>
    if n.toNat < 1 <<< bits then return n.toNat
    else failHere (.wrongValue (foundNumber (.nat n)) expected)
  | .neg n => failHere (.wrongValue (foundNumber (.neg n)) expected)
  | .double x => failHere (.wrongType (foundNumber (.double x)) expected)

/-- Read a double. -/
def double : Reader Float := do
  match ← numeric "f64" with
  | .nat n => return n.toFloat
  | .neg n => return -(UInt64.ofNat n.natAbs).toFloat
  | .double x => return x

/-- Read a single. -/
def single : Reader Float32 := do
  match ← numeric "f32" with
  | .nat n => return n.toFloat32
  | .neg n => return -(UInt64.ofNat n.natAbs).toFloat32
  | .double x => return x.toFloat32

/-- Read a string. -/
def str : Reader String := do
  let c ← valueToken
  if c = '"' then
    advance
    stringBody
  else unexpected c "a string"

/-- Read a null. -/
def null : Reader Unit := do
  let c ← valueToken
  if c = 'n' then
    advance
    ident "ull".toList
  else unexpected c "unit"

/-! ### Lists and objects -/

/-- Pass over spacing and the comma behind an item, if it is not the first one: whether an item
follows. -/
def hasItem (first : Bool) : Reader Bool := do
  match ← token with
  | none => failNext .endOfList
  | some ']' => return false
  | some c =>
    if first then return true
    else if c = ',' then
      advance
      match ← token with
      | some ']' => failNext .trailingComma
      | some _ => return true
      | none => failNext .endOfValue
    else failNext .expectedListEnd

/-- Take the bracket that closes a list. -/
def closeList : Reader Unit := do
  match ← token with
  | some ']' => advance
  | some ',' => do
    advance
    match ← token with
    | some ']' => failNext .trailingComma
    | _ => failNext .trailingCharacters
  | some _ => failNext .trailingCharacters
  | none => failNext .endOfList

/-- Read items up to the closing bracket. -/
def itemsWithin {α : Type} (item : Reader α) : Nat → Bool → Reader (List α)
  | 0, _ => return []
  | fuel + 1, first => do
    if ← hasItem first then
      let a ← item
      let rest ← itemsWithin item fuel false
      return a :: rest
    else return []

/-- Read a list behind its opening bracket. -/
def listBody {α : Type} (item : Reader α) : Reader (List α) := do
  let l ← itemsWithin item (← fuel) true
  closeList
  return l

/-- Read a list. -/
def elements {α : Type} (item : Reader α) : Reader (List α) := do
  let c ← valueToken
  if c = '[' then
    advance
    listBody item
  else unexpected c "a sequence"

/-- Pass over spacing and the comma behind a member, if it is not the first one: whether a key
follows. -/
def hasKey (first : Bool) : Reader Bool := do
  match ← token with
  | none => failNext .endOfObject
  | some '\x7d' => return false
  | some c =>
    if first then if c = '"' then return true else failNext .keyNotString
    else if c = ',' then
      advance
      match ← token with
      | some '"' => return true
      | some '\x7d' => failNext .trailingComma
      | some _ => failNext .keyNotString
      | none => failNext .endOfValue
    else failNext .expectedObjectEnd

/-- Read a key. -/
def key : Reader String := do
  advance
  stringBody

/-- Take the colon behind a key. -/
def colon : Reader Unit := do
  match ← token with
  | some ':' => advance
  | some _ => failNext .expectedColon
  | none => failNext .endOfObject

/-- Read members up to the closing brace. -/
def membersWithin {α : Type} (value : Reader α) : Nat → Bool → Reader (List (String × α))
  | 0, _ => return []
  | fuel + 1, first => do
    if ← hasKey first then
      let k ← key
      colon
      let v ← value
      let rest ← membersWithin value fuel false
      return (k, v) :: rest
    else return []

/-- The text comes before another one, in the order of their bytes, which is that of their
characters. -/
def keyBelow (a b : String) : Bool :=
  a < b

/-- Put a value under a key into sorted members, in place of one that is there. -/
def insertSorted {α : Type} (k : String) (v : α) : List (String × α) → List (String × α)
  | [] => [(k, v)]
  | (l, w) :: rest =>
    if k = l then (k, v) :: rest
    else if keyBelow k l then (k, v) :: (l, w) :: rest
    else (l, w) :: insertSorted k v rest

/-- Members sorted by their keys, the last value of each key. -/
def sorted {α : Type} (members : List (String × α)) : List (String × α) :=
  members.foldl (fun sorted (k, v) => insertSorted k v sorted) []

/-- Read the members of an object behind its opening brace, sorted by their keys. -/
def dictBody {α : Type} (value : Reader α) : Reader (List (String × α)) := do
  let members ← membersWithin value (← fuel) true
  advance
  return sorted members

/-- Read an object of any keys with values of one shape, sorted by its keys. Of several values of a
key, the last one counts. -/
def dict {α : Type} (value : Reader α) : Reader (List (String × α)) := do
  let c ← valueToken
  if c = '\x7b' then
    advance
    dictBody value
  else unexpected c "a map"

/-! ### Any document -/

/-- The node of a number. -/
def numberNode : Number → Node
  | .nat n => .int n.toNat
  | .neg n => .int n
  | .double x => .double x

/-- Read any document, given how to read what is nested in it, if that is allowed. -/
def nodeOver (nested : Option (Reader Node)) : Reader Node := do
  let c ← valueToken
  match c, nested with
  | 'n', _ => advance; ident "ull".toList; return .null
  | 't', _ => advance; ident "rue".toList; return .bool true
  | 'f', _ => advance; ident "alse".toList; return .bool false
  | '"', _ => advance; return .str (← stringBody)
  | '[', some item => advance; return .list (← listBody item)
  | '\x7b', some value => advance; return .object (← dictBody value)
  | '[', none | '\x7b', none => failNext .nestedTooDeep
  | c, _ =>
    if c = '-' ∨ c.isDigit then return numberNode (← number c) else failNext .expectedValue

/-- Read any document, nested at most the given number of levels. -/
def node : Nat → Reader Node
  | 0 => nodeOver none
  | levels + 1 => nodeOver (some (node levels))

/-! ### Records -/

/-- A field of a record: its name, how its value is put into the record, and whether the record is
complete without it. -/
structure Field (α : Type) where
  /-- The name. -/
  name : String
  /-- Read a value and put it into a record. -/
  set : α → Reader α
  /-- The field may be left out. -/
  optional : Bool

/-- Fail behind the brace that closes an object, if it is there. -/
def failClosed {α : Type} (f : Fault) : Reader α := do
  if (← token) = some '\x7d' then advance
  failHere f

/-- Read the members of a record up to the closing brace, given the names of those read before.
Members of other names are passed over. -/
def recordMembers {α : Type} (fields : List (Field α)) :
    Nat → List String → Bool → α → Reader (α × List String)
  | 0, seen, _, a => return (a, seen)
  | fuel + 1, seen, first, a => do
    if ← hasKey first then
      let k ← key
      match fields.find? (·.name == k) with
      | none => do
        colon
        skip
        recordMembers fields fuel seen false a
      | some field =>
        if seen.contains k then failClosed (.duplicateField k)
        else do
          colon
          let a ← field.set a
          recordMembers fields fuel (k :: seen) false a
    else return (a, seen)

/-- Read the items of a record that is written as a list of its fields, given the number of those
read before. -/
def recordItems {α : Type} (expected : String) (count : Nat) :
    List (Field α) → α → Reader α
  | [], a => return a
  | field :: rest, a => do
    if ← hasItem (count == 0) then
      let a ← field.set a
      recordItems expected (count + 1) rest a
    else if field.optional then recordItems expected (count + 1) rest a
    else do
      closeList
      failHere (.wrongLength count expected)

/-- The first field that has to be there and is not. -/
def missing? {α : Type} (fields : List (Field α)) (seen : List String) : Option String :=
  (fields.find? fun field => !field.optional && !seen.contains field.name).map (·.name)

/-- Read a record, starting from one that holds the values of optional fields: an object of its
fields, or a list of them in order. -/
def record {α : Type} (name : String) (fields : List (Field α)) (a : α) : Reader α := do
  let c ← valueToken
  match c with
  | '[' => do
    advance
    let count := if fields.length = 1 then "1 element" else s!"{fields.length} elements"
    let a ← recordItems s!"{name} with {count}" 0 fields a
    closeList
    return a
  | '\x7b' => do
    advance
    let (a, seen) ← recordMembers fields (← fuel) [] true a
    match missing? fields seen with
    | some field => failClosed (.missingField field)
    | none => do
      advance
      return a
  | c => unexpected c name

/-! ### Whole texts -/

/-- Read a whole text. -/
def run {α : Type} (r : Reader α) (text : List Char) : Except ReadError α :=
  (StateT.run go (Place.start text)).map (·.1)
where
  /-- Read a document and check that only spacing follows. -/
  go : Reader α := do
    let a ← r
    match ← token with
    | none => return a
    | some _ => failNext .trailingCharacters

end Reader

end Raceway.Json
