import Raceway.Op.Call
/-!
# Operations as lines of text

A plan line writes an operation as its name with arguments in parentheses, and reading accepts some
freedom in spacing, number formats and the order of keyed arguments.

## Main definitions

* `Raceway.Op.line`: the canonical line of an operation.
* `Raceway.LineError`: why a text is not an operation.
* `Raceway.Call.ofLine` and `Raceway.Op.ofLine`: reading.
-/

namespace Raceway

open Text Decimal

/-! ### Writing -/

/-- The integer that a 64-bit word writes, with its top bit as the sign. -/
def signedWord (n : UInt64) : Int :=
  Int.bmod n.toNat UInt64.size

/-- The name of a side. -/
def Side.name : Side → String
  | left => "left"
  | right => "right"

/-- The argument that a value is written as. -/
def Value.arg : Value Float → Arg
  | count n => .int n.toNat
  | seed n => .int (signedWord n)
  | number x => .float x
  | columns cols => .list (cols.map fun c => (c.toNat : Int))
  | side s => .str s.name

/-- The value is the default of the parameter. -/
def Param.isDefault (param : Param) (value : Value Float) : Bool :=
  match param.default? with
  | some (.value v) => v == value
  | _ => false

/-- The text of an argument: alone, behind its key, or left out where it is a keyed default. -/
def Param.write (param : Param) (value : Value Float) : Option String :=
  if param.keyed then
    if param.isDefault value then none else some (param.name ++ "=" ++ value.arg.text)
  else some value.arg.text

/-- The written arguments of an operation. -/
def Op.writtenArgs (op : Op Float) : List String :=
  (op.verb.params.zip op.values).filterMap fun (param, value) => param.write value

/-- The canonical line of an operation. -/
def Op.line (op : Op Float) : String :=
  op.verb.name ++ "(" ++ String.intercalate "," op.writtenArgs ++ ")"

/-! ### Errors -/

/-- Why a text is not an operation. -/
inductive LineError where
  | noParenthesis
  | unclosed
  | badName (name : String)
  | strayBracket
  | openBracket
  | emptyArgument
  | positionalAfterKeyed
  | unterminatedList (raw : String)
  | badItem (item : String)
  | badNumber (raw : String)
  | badArgument (raw : String)
  | bind (e : CallError)

/-- The wording of a line error. -/
def LineError.message : LineError → String
  | noParenthesis => "expected `opName(...)`"
  | unclosed => "missing closing `)`"
  | badName name => s!"`{name}` is not an op name"
  | strayBracket => "unbalanced `]`"
  | openBracket => "unbalanced `[`"
  | emptyArgument => "empty argument"
  | positionalAfterKeyed => "positional argument after named argument"
  | unterminatedList raw => s!"unterminated list `{raw}`"
  | badItem item => s!"`{item}` is not an integer"
  | badNumber raw => s!"`{raw}` is not a number"
  | badArgument raw => s!"cannot parse argument `{raw}`"
  | bind e => e.message

/-! ### Reading -/

/-- The character may start a name. -/
def isNameStart (c : Char) : Bool :=
  c.isAlpha || c == '_'

/-- The character may stand inside a name. -/
def isNameChar (c : Char) : Bool :=
  c.isAlphanum || c == '_'

/-- The text is a name: ASCII letters, digits and underscores, not starting with a digit. -/
def isName : List Char → Bool
  | [] => false
  | c :: rest => isNameStart c && rest.all isNameChar

/-- One step of splitting a text, from its front: the bracket depth, the piece being read and the
pieces before it, both reversed. -/
def splitStep (state : Nat × List Char × List (List Char)) (c : Char) :
    Except LineError (Nat × List Char × List (List Char)) :=
  let (depth, piece, pieces) := state
  if c = '[' then .ok (depth + 1, c :: piece, pieces)
  else if c = ']' then
    if depth = 0 then .error .strayBracket else .ok (depth - 1, c :: piece, pieces)
  else if c = ',' ∧ depth = 0 then .ok (0, [], piece.reverse :: pieces)
  else .ok (depth, c :: piece, pieces)

/-- Split a text at the commas outside brackets. A blank text has no pieces. -/
def splitArguments (body : List Char) : Except LineError (List (List Char)) :=
  if trim body = [] then .ok []
  else do
    let (depth, piece, pieces) ← body.foldlM splitStep (0, [], [])
    if depth ≠ 0 then .error .openBracket else .ok (piece.reverse :: pieces).reverse

/-- Split a text at each comma. -/
def splitCommas (s : List Char) : List (List Char) :=
  s.splitOn ','

/-- Read an item of a list. -/
def readItem (item : List Char) : Except LineError Int :=
  match readInt? (trim item) with
  | some n => .ok n
  | none => .error (.badItem (String.ofList (trim item)))

/-- Read the inside of a list. -/
def readItems (inner : List Char) : Except LineError (List Int) :=
  if trim inner = [] then .ok [] else (splitCommas inner).mapM readItem

/-- The character may start a number that is not an integer. -/
def startsNumber (c : Char) : Bool :=
  c.isDigit || c == '-' || c == '+' || c == '.'

/-- Read an argument that is not a list. -/
def readScalar (raw : List Char) : Except LineError Arg :=
  if isWord "true" raw then .ok (.bool true)
  else if isWord "false" raw then .ok (.bool false)
  else
    match readInt? raw with
    | some n => .ok (.int n)
    | none =>
      if raw.head?.any startsNumber then
        match readDouble? raw with
        | some x => .ok (.float x)
        | none => .error (.badNumber (String.ofList raw))
      else if isName raw then .ok (.str (String.ofList raw))
      else .error (.badArgument (String.ofList raw))

/-- Read an argument. -/
def readArg (text : List Char) : Except LineError Arg :=
  match trim text with
  | '[' :: inner =>
    if inner.getLast? = some ']' then (readItems inner.dropLast).map .list
    else .error (.unterminatedList (String.ofList ('[' :: inner)))
  | raw => readScalar raw

/-- Split a keyed argument at its first equals sign: its key and its value. -/
def splitKeyed (piece : List Char) : Option (List Char × List Char) :=
  if piece.head? = some '[' then none
  else
    match piece.span (· != '=') with
    | (_, []) => none
    | (key, _ :: value) => if isName (trim key) then some (trim key, value) else none

/-- Add the argument that a piece writes to a call. -/
def Call.addPiece (call : Call) (piece : List Char) : Except LineError Call :=
  let piece := trim piece
  if piece = [] then .error .emptyArgument
  else
    match splitKeyed piece with
    | some (key, value) => do
      let arg ← readArg value
      return { call with keyed := call.keyed ++ [(String.ofList key, arg)] }
    | none =>
      if call.keyed ≠ [] then .error .positionalAfterKeyed
      else do
        let arg ← readArg piece
        return { call with positional := call.positional ++ [arg] }

/-- A line without the blanks around it and the semicolons that end it. -/
def trimLine (line : List Char) : List Char :=
  trimEnd ((trim line).reverse.dropWhile (· == ';')).reverse

/-- Read a call. -/
def Call.ofLine (line : List Char) : Except LineError Call :=
  match (trimLine line).span (· != '(') with
  | (_, []) => .error .noParenthesis
  | (front, _ :: rest) =>
    if rest.getLast? ≠ some ')' then .error .unclosed
    else
      let name := trim front
      if !isName name then .error (.badName (String.ofList name))
      else do
        let pieces ← splitArguments rest.dropLast
        pieces.foldlM Call.addPiece ⟨String.ofList name, [], []⟩

/-- Read an operation. -/
def Op.ofLine (line : List Char) : Except LineError (Op Float) := do
  let call ← Call.ofLine line
  match Op.ofCall call with
  | .ok op => .ok op
  | .error e => .error (.bind e)

end Raceway
