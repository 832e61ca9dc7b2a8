import Raceway.Json.Reader
import Raceway.Op.Schema
/-!
# Operations as documents

An operation is written as an object with one member, whose key is the name of its kind and whose
value is an object of its arguments. An operation without arguments is written as its name alone.

## Main definitions

* `Raceway.Op.document`: the document of an operation.
* `Raceway.Op.reader`: reading one.
-/

namespace Raceway

open Json

/-! ### Names -/

/-- The name of a verb in documents. -/
def Verb.tag : Verb → String
  | build => "BuildAbs"
  | deleteRows => "DeleteRows"
  | deleteTiles => "DeleteTiles"
  | randomHoles => "RandomHoles"
  | jumpGaps => "InsertJumpGaps"
  | curve => "CurveRows"
  | sBend => "SBend"
  | slopes => "SlopesRandomAuto"
  | marginStart => "SafeMarginStart"
  | marginEnd => "SafeMarginEnd"
  | smoothColumns => "SmoothColumns"
  | seed => "Seed"
  | fork => "YSplit"
  | rejoin => "Rejoin"
  | smoothHeights => "SmoothHeights"
  | fillAll => "FillAll"
  | fillRows => "FillRows"
  | fillTiles => "FillTiles"

/-- The verb with the given name in documents. -/
def Verb.ofTag? (tag : String) : Option Verb :=
  all.find? (·.tag == tag)

/-- The name of a parameter in documents. -/
def Param.field (param : Param) : String :=
  match param.name with
  | "minDeg" => "min_deg"
  | "maxDeg" => "max_deg"
  | "segLen" => "seg_len"
  | "gapStart" => "gap_start"
  | "gapEnd" => "gap_end"
  | name => name

/-- The name of a side in documents. -/
def Side.tag : Side → String
  | left => "Left"
  | right => "Right"

/-! ### Writing -/

/-- The document of a value. -/
def Value.document : Value Float → Node
  | count n => .int n.toNat
  | seed n => .int n.toNat
  | number x => .double x
  | columns cols => .list (cols.map fun c => .int c.toNat)
  | side s => .str s.tag

/-- The document of an operation. -/
def Op.document (op : Op Float) : Node :=
  if op.values.isEmpty then .str op.verb.tag
  else
    .object [(op.verb.tag, .object ((op.verb.params.zip op.values).map fun (param, value) =>
      (param.field, value.document)))]

/-! ### Reading -/

/-- Read a name that stands for one of some things: alone, or as the key of an object whose value
the thing determines. -/
def variant {α β : Type} (find : String → Option α) (alone : α → Reader β)
    (keyed : α → Reader β) : Reader β := do
  let c ← Reader.valueToken
  match c with
  | '"' => do
    let name ← Reader.str
    match find name with
    | some a => alone a
    | none => Reader.failHere .unknownVariant
  | '\x7b' => do
    Reader.advance
    let name ← Reader.str
    match find name with
    | some a => do
      Reader.colon
      let b ← keyed a
      match ← Reader.token with
      | some '\x7d' => Reader.advance; return b
      | some _ => Reader.failHere .expectedValue
      | none => Reader.failHere .endOfObject
    | none => Reader.failHere .unknownVariant
  | _ => Reader.failNext .expectedValue

/-- Read a name that stands alone, or is the key of a null. -/
def plainVariant {α : Type} (find : String → Option α) : Reader α :=
  variant find pure fun a => do
    Reader.null
    return a

/-- The side with the given name in documents. -/
def Side.ofTag? (tag : String) : Option Side :=
  [Side.left, Side.right].find? (·.tag == tag)

/-- Read a value of a kind. -/
def Value.reader : ValueKind → Reader (Value Float)
  | .count => return .count (UInt32.ofNat (← Reader.word 32))
  | .seed => return .seed (UInt64.ofNat (← Reader.word 64))
  | .number => return .number (← Reader.double)
  | .columns => return .columns ((← Reader.elements (Reader.word 32)).map UInt32.ofNat)
  | .side => return .side (← plainVariant Side.ofTag?)

/-- A parameter as a field, which collects values by the names of their parameters. -/
def Param.reader (param : Param) : Reader.Field (List (String × Value Float)) :=
  ⟨param.field, fun values => return values ++ [(param.name, ← Value.reader param.kind)], false⟩

/-- The operation of a verb with values by the names of their parameters. -/
def Op.ofNamed? (verb : Verb) (values : List (String × Value Float)) : Option (Op Float) := do
  ofValues? verb (← verb.params.mapM fun param => values.lookup param.name)

/-- Read the arguments of a verb. -/
def Verb.argumentReader (verb : Verb) : Reader (Op Float) := do
  let values ←
    if verb.params.isEmpty then do
      Reader.null
      pure []
    else
      Reader.record s!"arguments of {verb.tag}" (verb.params.map Param.reader) []
  match Op.ofNamed? verb values with
  | some op => return op
  | none => Reader.failHere .unknownVariant

/-- Read an operation. A name alone stands for an operation without arguments. -/
def Op.reader : Reader (Op Float) :=
  variant Verb.ofTag? (fun verb =>
    match Op.ofNamed? verb [] with
    | some op => return op
    | none => Reader.failHere (.wrongType "unit variant" "struct variant")) Verb.argumentReader

/-- Read an operation from the text of a document. -/
def Op.ofDocument (text : List Char) : Except ReadError (Op Float) :=
  Reader.run Op.reader text

end Raceway
