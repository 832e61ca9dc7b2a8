import Raceway.Pattern.Error
import Raceway.Pattern.Flags
/-!
# Reading written patterns: steps and single parts

A reader takes a pattern off the front of a text. It keeps the number of characters taken, for its
errors, the flags that hold, and the number and names of the groups opened so far.

## Main definitions

* `Raceway.PatternReader`: a reader.
* `Raceway.PatternReader.escape`: a part that a backslash starts.
* `Raceway.PatternReader.bracketed`: a class in brackets.
-/

namespace Raceway

open Text

/-- What a reader of patterns keeps. -/
structure PatternState where
  /-- The number of characters taken. -/
  offset : Nat
  /-- What is left of the pattern. -/
  rest : List Char
  /-- The flags that hold. -/
  flags : Flags
  /-- The number of groups opened. -/
  groups : Nat
  /-- The names of the groups opened. -/
  names : List (List Char)
  /-- The first part that the flags or the known properties forbid. -/
  late : Option PatternError

/-- A reader of patterns. -/
abbrev PatternReader := StateT PatternState (Except PatternError)

/-- A part of a pattern that stands for one character or for a place. -/
inductive Atom where
  /-- A character that stands for itself. -/
  | literal (c : Char)
  /-- A class, closed under letter case where it has to be. -/
  | cls (a : CharClass)
  /-- A place. -/
  | place (a : Assertion)

namespace PatternReader

/-! ### Steps -/

/-- The number of characters taken. -/
def offset : PatternReader Nat :=
  return (← get).offset

/-- Fail on the part between two places. -/
def failAt {α : Type} (f : PatternFault) (start stop : Nat) : PatternReader α :=
  throw ⟨f, start, stop⟩

/-- Fail at the place reached. -/
def failHere {α : Type} (f : PatternFault) : PatternReader α := do
  let here ← offset
  failAt f here here

/-- Fail on the next character. -/
def failChar {α : Type} (f : PatternFault) : PatternReader α := do
  let here ← offset
  failAt f here (here + 1)

/-- Remember that the part from a place on is forbidden. -/
def forbid (f : MeaningFault) (start : Nat) : PatternReader Unit :=
  modify fun s => { s with late := s.late.or (some ⟨.meaning f, start, s.offset⟩) }

/-- The next character, which stays in front. -/
def peek : PatternReader (Option Char) :=
  return (← get).rest.head?

/-- Pass over the next character. -/
def advance : PatternReader Unit :=
  modify fun s => { s with offset := min (s.offset + 1) (s.offset + s.rest.length),
                           rest := s.rest.drop 1 }

/-- The text starts with the given characters, which are then passed over. -/
def takeText (text : List Char) : PatternReader Bool := do
  let s ← get
  if text.isPrefixOf s.rest then
    set { s with offset := s.offset + text.length, rest := s.rest.drop text.length }
    return true
  else return false

/-- The number of characters of spacing and comments in front. -/
def spacingLength : Bool → List Char → Nat
  | _, [] => 0
  | true, c :: rest => 1 + spacingLength (c != '\n') rest
  | false, c :: rest =>
    if isBlank c then 1 + spacingLength false rest
    else if c = '#' then 1 + spacingLength true rest
    else 0

/-- Pass over spacing and comments, if the flags say so. -/
def skipSpacing : PatternReader Unit := do
  let s ← get
  if s.flags.spaced then
    let n := spacingLength false s.rest
    set { s with offset := s.offset + n, rest := s.rest.drop n }

/-- Pass over the next character, and over spacing and comments: whether anything is left. -/
def advanceSpaced : PatternReader Bool := do
  advance
  skipSpacing
  return (← peek).isSome

/-- The characters that are left, as a bound for loops. -/
def fuel : PatternReader Nat :=
  return (← get).rest.length + 1

/-! ### Numbers -/

/-- Take decimal digits, last one first. -/
def decimalDigits : Nat → List Char → PatternReader (List Char)
  | 0, taken => return taken
  | fuel + 1, taken => do
    match ← peek with
    | some c =>
      if c.isDigit then
        let _ ← advanceSpaced
        decimalDigits fuel (c :: taken)
      else return taken
    | none => return taken

/-- Pass over white space. -/
def skipBlanks : PatternReader Unit := do
  let s ← get
  let n := (s.rest.takeWhile isBlank).length
  set { s with offset := s.offset + n, rest := s.rest.drop n }

/-- Take a decimal number, possibly with white space around it: nothing where there are no digits.
-/
def decimal : PatternReader (Except PatternError Nat) := do
  skipBlanks
  let start ← offset
  let digits ← decimalDigits (← fuel) []
  let stop ← offset
  skipBlanks
  let n := digits.foldr (fun c n => 10 * n + (c.toNat - '0'.toNat)) 0
  if digits.isEmpty then return .error ⟨.countEmpty, start, stop⟩
  else if n < UInt32.size then return .ok n
  else return .error ⟨.decimalInvalid, start, stop⟩

/-- The value of a hexadecimal digit. -/
def hexValue? (c : Char) : Option Nat :=
  if c.isDigit then some (c.toNat - '0'.toNat)
  else if 'a' ≤ c ∧ c ≤ 'f' then some (c.toNat - 'a'.toNat + 10)
  else if 'A' ≤ c ∧ c ≤ 'F' then some (c.toNat - 'A'.toNat + 10)
  else none

/-- The character with the given code, if there is one. -/
def char? (n : Nat) : Option Char :=
  if n.isValidChar then some (Char.ofNat n) else none

/-- Take a number of hexadecimal digits into a number. -/
def hexDigits : Nat → Bool → Nat → PatternReader Nat
  | 0, _, n => return n
  | count + 1, first, n => do
    if !first then
      if !(← advanceSpaced) then failHere .escapeEnd
    match (← peek).bind hexValue? with
    | some d => hexDigits count false (16 * n + d)
    | none => failChar .hexDigit

/-- Take hexadecimal digits up to a closing brace, and how many there were. -/
def bracedHexDigits : Nat → Nat → Nat → PatternReader (Nat × Nat)
  | 0, count, n => return (count, n)
  | fuel + 1, count, n => do
    let more ← advanceSpaced
    match ← peek with
    | none => return (count, n)
    | some c =>
      if !more ∨ c = '\x7d' then return (count, n)
      else
        match hexValue? c with
        | some d => bracedHexDigits fuel (count + 1) (16 * n + d)
        | none => failChar .hexDigit

/-- Take the code of a character behind its letter, which says how many digits it has. -/
def hexCode (digits : Nat) : PatternReader Char := do
  if !(← advanceSpaced) then failHere .escapeEnd
  let start ← offset
  if (← peek) = some '\x7b' then
    let (count, n) ← bracedHexDigits (← fuel) 0 0
    let stop ← offset
    if (← peek).isNone then failAt .escapeEnd start stop
    let _ ← advanceSpaced
    if count = 0 then failAt .hexEmpty start (← offset)
    else
      match char? n with
      | some c => if count ≤ 8 then return c else failAt .hexInvalid (start + 1) stop
      | none => failAt .hexInvalid (start + 1) stop
  else
    let n ← hexDigits digits true 0
    let _ ← advanceSpaced
    match char? n with
    | some c => return c
    | none => failAt .hexInvalid start (← offset)

/-! ### Properties -/

/-- Take the name of a property up to a closing brace, last character first. -/
def propertyName : Nat → List Char → PatternReader (List Char)
  | 0, taken => return taken
  | fuel + 1, taken => do
    let more ← advanceSpaced
    match ← peek with
    | none => return taken
    | some c => if !more ∨ c = '\x7d' then return taken else propertyName fuel (c :: taken)

/-- Split a name at the first place where a text stands. -/
def splitAt? (mark : List Char) : List Char → Option (List Char × List Char)
  | [] => none
  | c :: rest =>
    if mark.isPrefixOf (c :: rest) then some ([], (c :: rest).drop mark.length)
    else (splitAt? mark rest).map fun (front, back) => (c :: front, back)

/-- The class of a named property, and whether the name asks for its complement. -/
def namedProperty (name : List Char) : Except MeaningFault (CharClass × Bool) :=
  let byValue (property value : List Char) (negated : Bool) :=
    if isCategoryProperty property then
      match CharClass.ofCategoryName? (plainName value) with
      | some a => .ok (a, negated)
      | none => .error .unknownValue
    else .error .unknownProperty
  match splitAt? ['!', '='] name, splitAt? [':'] name, splitAt? ['='] name with
  | some (property, value), _, _ => byValue property value true
  | none, some (property, value), _ => byValue property value false
  | none, none, some (property, value) => byValue property value false
  | none, none, none =>
    match CharClass.ofPropertyName? name with
    | some a => .ok (a, false)
    | none => .error .unknownProperty

/-- Take the name of a property behind its letter. -/
def propertyText : PatternReader (List Char) := do
  if !(← advanceSpaced) then failHere .escapeEnd
  match ← peek with
  | some '\x7b' => do
    let name ← propertyName (← fuel) []
    if (← peek).isNone then failHere .escapeEnd
    advance
    return name.reverse
  | some '\\' => failChar .propertyInvalid
  | some c => do
    let _ ← advanceSpaced
    return [c]
  | none => failHere .escapeEnd

/-- Take a class by its property. -/
def propertyClass (start : Nat) (negated : Bool) : PatternReader CharClass := do
  let name ← propertyText
  let flags := (← get).flags
  if !flags.unicode then
    forbid .notAllowed start
    return .nothing
  else
    match namedProperty name with
    | .ok (a, inverted) =>
      let a := flags.fold a
      return if negated != inverted then .compl a else a
    | .error f => do
      forbid f start
      return .nothing

/-! ### Escapes -/

/-- The character has a meaning of its own in patterns. -/
def isMeta (c : Char) : Bool :=
  "\\.+*?()|[]\x7b\x7d^$#&-~".toList.contains c

/-- The character may stand behind a backslash without having a meaning there. -/
def isEscapable (c : Char) : Bool :=
  isMeta c || (c.toNat < 128 && !c.isAlphanum && c != '<' && c != '>')

/-- The character that an escape of one letter stands for. -/
def controlEscape? : Char → Option Char
  | 'a' => some (Char.ofNat 0x07)
  | 'f' => some (Char.ofNat 0x0C)
  | 't' => some '\t'
  | 'n' => some '\n'
  | 'r' => some '\r'
  | 'v' => some (Char.ofNat 0x0B)
  | _ => none

/-- The character may stand in the name of the edge of a word. -/
def isEdgeNameChar (c : Char) : Bool :=
  c.isAlpha || c == '-'

/-- Take the name of the edge of a word, last character first. -/
def edgeName : Nat → List Char → PatternReader (List Char)
  | 0, taken => return taken
  | fuel + 1, taken => do
    match ← peek with
    | some c =>
      if isEdgeNameChar c then
        let _ ← advanceSpaced
        edgeName fuel (c :: taken)
      else return taken
    | none => return taken

/-- Take the name in braces that may follow the edge of a word. Where the braces hold something
else, they are left for a repetition. -/
def namedEdge (start : Nat) (w : Property) : PatternReader (Option Assertion) := do
  let opened ← get
  if opened.rest.head? ≠ some '\x7b' then return none
  else
    if !(← advanceSpaced) then failAt .edgeEnd start (← offset)
    let inner ← offset
    if !(← peek).any isEdgeNameChar then
      set opened
      return none
    else
      let name ← edgeName (← fuel) []
      let stop ← offset
      if (← peek) ≠ some '\x7d' then failAt .edgeUnclosed opened.offset stop
      advance
      match String.ofList name.reverse with
      | "start" => return some (.wordStart w)
      | "end" => return some (.wordEnd w)
      | "start-half" => return some (.noWordBefore w)
      | "end-half" => return some (.noWordAfter w)
      | _ => failAt .edgeUnknown inner stop

/-- Take a part that a backslash starts. -/
def escape : PatternReader Atom := do
  let start ← offset
  advance
  let flags := (← get).flags
  match ← peek with
  | none => failAt .escapeEnd start (← offset)
  | some c =>
    if c.isDigit then failAt .backreference start ((← offset) + 1)
    else if c = 'x' then return .literal (← hexCode 2)
    else if c = 'u' then return .literal (← hexCode 4)
    else if c = 'U' then return .literal (← hexCode 8)
    else if c = 'p' ∨ c = 'P' then return .cls (← propertyClass start (c == 'P'))
    else
      match flags.letterProperty? c.toLower with
      | some property => do
        advance
        if c.isLower then return .cls (.property property)
        else do
          if !flags.unicode then forbid .notText start
          return .cls (.compl (.property property))
      | none => do
        advance
        if isEscapable c then return .literal c
        else
          match controlEscape? c with
          | some d => return .literal d
          | none =>
            let w := flags.wordProperty
            match c with
            | 'A' => return .place .textStart
            | 'z' => return .place .textEnd
            | 'b' => return .place ((← namedEdge start w).getD (.wordEdge w))
            | 'B' => return .place (.noWordEdge w)
            | '<' => return .place (.wordStart w)
            | '>' => return .place (.wordEnd w)
            | _ => failAt .escapeUnknown start (← offset)

/-! ### Classes in brackets -/

/-- The operations between classes. -/
inductive SetOp where
  | inter
  | diff
  | symmDiff

/-- A class that is being read: the class in front of the last operation, with that operation, and
what is read behind it. -/
structure OpenClass where
  /-- What stands in front of the last operation. -/
  left : Option (CharClass × SetOp)
  /-- What is read behind it. -/
  items : List CharClass

/-- Combine two classes, each closed under letter case where it has to be. -/
def SetOp.combine (flags : Flags) (op : SetOp) (a b : CharClass) : CharClass :=
  let a := flags.fold a
  let b := flags.fold b
  match op with
  | inter => .inter a b
  | diff => .diff a b
  | symmDiff => .symmDiff a b

/-- The class read so far. -/
def OpenClass.close (flags : Flags) (c : OpenClass) : CharClass :=
  let last := CharClass.unions c.items.reverse
  match c.left with
  | some (a, op) => op.combine flags a last
  | none => last

/-- Add a class to those behind the last operation. -/
def OpenClass.push (c : OpenClass) (a : CharClass) : OpenClass :=
  { c with items := a :: c.items }

/-- Take an atom inside brackets, and where it starts. -/
def classAtom : PatternReader (Nat × Atom) := do
  let start ← offset
  match ← peek with
  | some '\\' => return (start, ← escape)
  | some c => do
    advance
    return (start, .literal c)
  | none => failHere .classUnclosed

/-- The class of an atom inside brackets. -/
def atomClass (start : Nat) : Atom → PatternReader CharClass
  | .literal c => return .single c
  | .cls a => return a
  | .place _ => do failAt .classEscape start (← offset)

/-- The character of an atom at the end of a range. -/
def rangeEnd (start stop : Nat) : Atom → PatternReader Char
  | .literal c => return c
  | _ => failAt .classRangeLiteral start stop

/-- The character behind the next one, spacing and comments left out. -/
def peekSpaced : PatternReader (Option Char) := do
  let s ← get
  let rest := s.rest.drop 1
  return (if s.flags.spaced then rest.drop (spacingLength false rest) else rest).head?

/-- Take a single item or a range inside brackets that were opened between two places. -/
def classItem (opened inner : Nat) : PatternReader CharClass := do
  let (start, first) ← classAtom
  let firstStop ← offset
  skipSpacing
  match ← peek with
  | none => failAt .classUnclosed opened inner
  | some c =>
    let second ← peekSpaced
    if c ≠ '-' ∨ second = some ']' ∨ second = some '-' then atomClass start first
    else
      if !(← advanceSpaced) then failAt .classUnclosed opened inner
      let (middle, last) ← classAtom
      let stop ← offset
      let low ← rangeEnd start firstStop first
      let high ← rangeEnd middle stop last
      if low ≤ high then return .range low high else failAt .classRange start stop

/-- Take an ASCII class by its name, if one follows. -/
def asciiClass? : PatternReader (Option CharClass) := do
  let s ← get
  match s.rest with
  | '[' :: ':' :: rest =>
    let negated := rest.head? = some '^'
    let body := if negated then rest.drop 1 else rest
    let name := body.takeWhile (· != ':')
    match CharClass.ofAsciiName? name, body.drop name.length with
    | some a, ':' :: ']' :: after => do
      set { s with offset := s.offset + (s.rest.length - after.length), rest := after }
      return some (if negated then .compl a else a)
    | _, _ => return none
  | _ => return none

/-- Take hyphens that stand for themselves. -/
def leadingHyphens (opened : Nat) : Nat → PatternReader Nat
  | 0 => return 0
  | fuel + 1 => do
    if (← peek) = some '-' then
      if !(← advanceSpaced) then failAt .classUnclosed opened opened
      return (← leadingHyphens opened fuel) + 1
    else return 0

/-- Take an opening bracket and what may follow it: whether the class is a complement, and the
characters that stand for themselves there. -/
def openBracket : PatternReader (Bool × OpenClass) := do
  let opened ← offset
  if !(← advanceSpaced) then failAt .classUnclosed opened (← offset)
  let negated := (← peek) = some '^'
  if negated then
    if !(← advanceSpaced) then failAt .classUnclosed opened (← offset)
  let hyphens ← leadingHyphens opened (← fuel)
  let items := List.replicate (min hyphens 1) (CharClass.single '-')
  if items.isEmpty ∧ (← peek) = some ']' then
    if !(← advanceSpaced) then failAt .classUnclosed opened (← offset)
    return (negated, ⟨none, [.single ']']⟩)
  else return (negated, ⟨none, items⟩)

/-- The class that ends at a closing bracket. -/
def closeBracket (start : Nat) (negated : Bool) (c : OpenClass) : PatternReader CharClass := do
  let flags := (← get).flags
  let a := flags.fold (c.close flags)
  if negated then
    if !flags.unicode then forbid .notText start
    return .compl a
  else return a

/-- Take an operation between classes, if one follows. -/
def setOp? : PatternReader (Option SetOp) := do
  if ← takeText ['&', '&'] then return some .inter
  else if ← takeText ['-', '-'] then return some .diff
  else if ← takeText ['~', '~'] then return some .symmDiff
  else return none

/-- Take the rest of a class whose bracket was opened between two places. -/
def classBody (opened inner : Nat) (negated : Bool) : Nat → OpenClass → PatternReader CharClass
  | 0, _ => failAt .classUnclosed opened inner
  | fuel + 1, c => do
    skipSpacing
    match ← peek with
    | none => failAt .classUnclosed opened inner
    | some ']' => do
      advance
      closeBracket opened negated c
    | some '[' => do
      match ← asciiClass? with
      | some a => classBody opened inner negated fuel (c.push a)
      | none => do
        let start ← offset
        let (negatedInner, nested) ← openBracket
        let a ← classBody start (← offset) negatedInner fuel nested
        classBody opened inner negated fuel (c.push a)
    | some _ => do
      match ← setOp? with
      | some op =>
        classBody opened inner negated fuel ⟨some (c.close (← get).flags, op), []⟩
      | none => do
        let a ← classItem opened inner
        classBody opened inner negated fuel (c.push a)

/-- Take a class in brackets. -/
def bracketed : PatternReader CharClass := do
  let start ← offset
  let (negated, c) ← openBracket
  classBody start (← offset) negated (← fuel) c

end PatternReader

end Raceway
