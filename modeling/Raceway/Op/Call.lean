import Raceway.Decimal.Reading
import Raceway.Decimal.Shortest
import Raceway.Op.Schema
import Raceway.Text.Blank
/-!
# Calls and their binding

A call names a verb and gives arguments of loose types, some by position and some by name. Binding
matches the arguments with the parameters of the verb, converts each one to the kind of its
parameter and fills in what is left out.

## Main definitions

* `Raceway.Arg` and `Raceway.Call`: an argument and a call.
* `Raceway.CallError`: why a call names no operation.
* `Raceway.Param.convert`: an argument as a value of a parameter.
* `Raceway.Op.ofCall`: the operation that a call names.
-/

namespace Raceway

open Text Decimal

/-! ### Arguments -/

/-- An argument as it is given. -/
inductive Arg where
  | int (n : Int)
  | float (x : Float)
  | bool (b : Bool)
  | str (s : String)
  | list (items : List Int)
deriving BEq

/-- An integer in decimal digits. -/
def intText (n : Int) : String :=
  (if n < 0 then "-" else "") ++ String.ofList (natText n.natAbs)

/-- An argument as plan lines write it. -/
def Arg.text : Arg → String
  | int n => intText n
  | float x => doubleText x
  | bool b => if b then "true" else "false"
  | str s => s
  | list items => "[" ++ String.intercalate "," (items.map intText) ++ "]"

/-- An operation name with arguments. -/
structure Call where
  /-- The name of the verb. -/
  name : String
  /-- The arguments given by position. -/
  positional : List Arg
  /-- The arguments given by the name of their parameter. -/
  keyed : List (String × Arg)

/-! ### Errors -/

/-- What an argument was expected to be. -/
inductive Expectation where
  | count
  | seed
  | number
  | finite
  | columns
  | columnRange
  | side
deriving DecidableEq, Repr

/-- The wording of an expectation. -/
def Expectation.text : Expectation → String
  | count => "a non-negative integer"
  | seed => "a non-negative integer seed"
  | number => "a number"
  | finite => "a finite number"
  | columns => "a list of column numbers"
  | columnRange => "a list of non-negative integers"
  | side => "`left` or `right`"

/-- Why a call names no operation. -/
inductive CallError where
  /-- No verb has the name. -/
  | unknownOp (op : String)
  /-- More positional arguments than parameters. -/
  | tooManyArgs (op : String) (max : Nat)
  /-- No parameter of the verb has the name. -/
  | unknownParam (op param : String)
  /-- Two arguments for one parameter. -/
  | duplicateParam (op param : String)
  /-- A required argument is not given. -/
  | missingParam (op param : String)
  /-- An argument is not of the kind of its parameter. -/
  | badValue (op param : String) (value : Arg) (expected : Expectation)

/-- The wording of a binding error. -/
def CallError.message : CallError → String
  | unknownOp op => s!"unknown op `{op}`"
  | tooManyArgs op max => s!"`{op}` takes at most {max} arguments"
  | unknownParam op param => s!"`{op}` has no parameter `{param}`"
  | duplicateParam op param => s!"`{op}` parameter `{param}` given twice"
  | missingParam op param => s!"`{op}` is missing required parameter `{param}`"
  | badValue op param value expected =>
    s!"`{op}` parameter `{param}`: expected {expected.text}, got `{value.text}`"

/-! ### Conversion -/

/-- The argument as an integer, if it stands for one: an integer, an integral number, which is
brought within 64 bits, or a text that writes an integer. -/
def Arg.integer? : Arg → Option Int
  | int n => some n
  | float x => (Decimal.integer? x).map clampInt64
  | str s => readInt? (trim s.toList)
  | _ => none

/-- The integer as a count. -/
def count? (n : Int) : Option UInt32 :=
  if 0 ≤ n ∧ n < UInt32.size then some (UInt32.ofNat n.toNat) else none

/-- The integer as a seed, which has to be that of a 64-bit signed word. -/
def seedOf? (n : Int) : Option UInt64 :=
  if 0 ≤ n ∧ n ≤ maxInt64 then some (UInt64.ofNat n.toNat) else none

/-- The integer as a double, rounded to nearest. -/
def doubleOfInt (n : Int) : Float :=
  nearestDouble (n < 0) n.natAbs 0

/-- The argument as a number, or what it should have been. -/
def Arg.number : Arg → Except Expectation Float
  | float x => finite x
  | int n => finite (doubleOfInt n)
  | str s =>
    match readDouble? (trim s.toList) with
    | some x => finite x
    | none => .error .number
  | _ => .error .number
where
  /-- The number, if it is finite. -/
  finite (x : Float) : Except Expectation Float :=
    if x.isFinite then .ok x else .error .finite

/-- The argument as column numbers, or what it should have been. -/
def Arg.columns (a : Arg) : Except Expectation (List UInt32) :=
  match a with
  | list items => inRange items
  | int n => inRange [n]
  | _ => .error .columns
where
  /-- The integers as columns, if all are in range. -/
  inRange (items : List Int) : Except Expectation (List UInt32) :=
    match items.mapM count? with
    | some cols => .ok cols
    | none => .error .columnRange

/-- The argument as a side, named in any letter case. -/
def Arg.side? : Arg → Option Side
  | str s =>
    let word := trim s.toList
    if isWord "left" word then some .left
    else if isWord "right" word then some .right
    else none
  | _ => none

/-- The argument as a value of the given kind, or what it should have been. -/
def Arg.convert (a : Arg) : ValueKind → Except Expectation (Value Float)
  | .count => orElse .count (a.integer?.bind count?) .count
  | .seed => orElse .seed (a.integer?.bind seedOf?) .seed
  | .number => a.number.map .number
  | .columns => a.columns.map .columns
  | .side => orElse .side a.side? .side
where
  /-- The value in its kind, or the expectation that was not met. -/
  orElse {β : Type} (expected : Expectation) (b : Option β) (make : β → Value Float) :
      Except Expectation (Value Float) :=
    match b with
    | some b => .ok (make b)
    | none => .error expected

/-! ### Binding -/

/-- Arguments by the name of their parameter. -/
abbrev Given := List (String × Arg)

/-- Add an argument under the name of a parameter, which must exist and be free. -/
def Given.add (op : String) (params : List Param) (given : Given) (keyed : String × Arg) :
    Except CallError Given :=
  if params.all (·.name != keyed.1) then .error (.unknownParam op keyed.1)
  else if given.any (·.1 == keyed.1) then .error (.duplicateParam op keyed.1)
  else .ok (given ++ [keyed])

/-- The arguments of a call by the names of their parameters. -/
def Call.given (call : Call) (params : List Param) : Except CallError Given :=
  if call.positional.length > params.length then
    .error (.tooManyArgs call.name params.length)
  else
    call.keyed.foldlM (Given.add call.name params) ((params.map (·.name)).zip call.positional)

/-- Values by the name of their parameter. -/
abbrev Bound := List (String × Value Float)

/-- Convert the argument given for a parameter, if there is one. -/
def Given.convert (op : String) (given : Given) (param : Param) :
    Except CallError (Option (String × Value Float)) :=
  match given.lookup param.name with
  | none => .ok none
  | some arg =>
    match arg.convert param.kind with
    | .ok value => .ok (some (param.name, value))
    | .error expected => .error (.badValue op param.name arg expected)

/-- The value of a parameter: the one bound to it, else its default. -/
def Bound.value (op : String) (bound : Bound) (param : Param) : Except CallError (Value Float) :=
  match bound.lookup param.name, param.default? with
  | some value, _ => .ok value
  | none, some (.value value) => .ok value
  | none, some (.sameAs other) =>
    match bound.lookup other with
    | some value => .ok value
    | none => .error (.missingParam op other)
  | none, none => .error (.missingParam op param.name)

/-- The values of the arguments of a call, one for each parameter. All conversions come before the
search for what is left out. -/
def Call.bind (call : Call) (params : List Param) : Except CallError (List (Value Float)) := do
  let given ← call.given params
  let bound ← params.mapM (given.convert call.name)
  params.mapM (Bound.value call.name bound.reduceOption)

/-- The operation that a call names. -/
def Op.ofCall (call : Call) : Except CallError (Op Float) :=
  match Verb.ofName? call.name with
  | none => .error (.unknownOp call.name)
  | some verb => do
    let values ← call.bind verb.params
    match ofValues? verb values with
    | some op => .ok op
    | none => .error (.unknownOp call.name)

end Raceway
