import Raceway.Op.Basic
/-!
# Parameters of the operations

Every verb has a list of parameters. A parameter has a name and a kind of value, possibly a value to
take when none is given, and a mark for those that plan lines write as `key=value`. An operation is
its verb with one value for each parameter, in order.

## Main definitions

* `Raceway.Value`: a value of one of the five kinds.
* `Raceway.Param` and `Raceway.Verb.params`: the parameters of each verb.
* `Raceway.Op.values` and `Raceway.Op.ofValues?`: an operation as a verb with values, and back.

## Main results

* `Raceway.Op.ofValues?_values`: an operation is determined by its verb and its values.
-/

namespace Raceway

/-! ### Values and parameters -/

/-- The value of a parameter. -/
inductive Value (α : Type) where
  /-- A row, a column or a number of things. -/
  | count (n : UInt32)
  /-- The seed of a random stream. -/
  | seed (n : UInt64)
  /-- An angle, a share, a factor or a width. -/
  | number (x : α)
  /-- Column numbers. -/
  | columns (cols : List UInt32)
  /-- A side of the track. -/
  | side (s : Side)
deriving BEq, DecidableEq, Repr

/-- The kind of value that a parameter takes. -/
inductive ValueKind where
  | count
  | seed
  | number
  | columns
  | side
deriving DecidableEq, Repr

/-- What a parameter takes when no value is given. -/
inductive Default where
  /-- This value. -/
  | value (v : Value Float)
  /-- The value of another parameter of the same verb. -/
  | sameAs (param : String)

/-- A parameter of a verb. -/
structure Param where
  /-- The name of the parameter, under which an argument may be given. -/
  name : String
  /-- The kind of value. -/
  kind : ValueKind
  /-- What stands for an argument that is not given; without it the argument is required. -/
  default? : Option Default
  /-- Plan lines write the argument as `key=value`, and leave it out where it is the default. -/
  keyed : Bool

namespace Param

/-- A parameter that must be given. -/
def required (name : String) (kind : ValueKind) : Param :=
  ⟨name, kind, none, false⟩

/-- A count that may be left out. -/
def countOr (name : String) (n : UInt32) : Param :=
  ⟨name, .count, some (.value (.count n)), false⟩

/-- A count that is that of another parameter when left out. -/
def countLike (name other : String) : Param :=
  ⟨name, .count, some (.sameAs other), false⟩

/-- A keyed number that may be left out. -/
def keyedNumber (name : String) (x : Float) : Param :=
  ⟨name, .number, some (.value (.number x)), true⟩

/-- A keyed count that must be given. -/
def keyedCount (name : String) : Param :=
  ⟨name, .count, none, true⟩

end Param

/-- The parameters of a verb, in the order of positional arguments. -/
def Verb.params : Verb → List Param
  | build => [.required "rows" .count, .countOr "cols" 3]
  | deleteRows | fillRows => [.required "a" .count, .countLike "b" "a"]
  | deleteTiles | fillTiles => [.required "cols" .columns, .keyedCount "row"]
  | randomHoles => [.required "pct" .number]
  | jumpGaps | marginStart | marginEnd => [.required "n" .count]
  | curve =>
    [.required "a" .count, .required "b" .count, .required "dir" .side, .required "deg" .number]
  | sBend =>
    [.required "a" .count, .required "b" .count, .required "deg" .number, .keyedNumber "gain" 1,
      .keyedNumber "ratio" 0.5]
  | slopes => [.required "minDeg" .number, .required "maxDeg" .number, .countOr "segLen" 10]
  | smoothColumns | smoothHeights => [.countOr "passes" 1]
  | seed => [.required "value" .seed]
  | fork =>
    [.required "a" .count, .required "b" .count, .keyedNumber "gapStart" 1,
      .keyedNumber "gapEnd" 2]
  | rejoin => [.required "a" .count, .required "b" .count, .keyedNumber "target" 0]
  | fillAll => []

/-- The parameter of a verb with the given name. -/
def Verb.param? (v : Verb) (name : String) : Option Param :=
  v.params.find? (·.name == name)

/-! ### Operations as verbs with values -/

namespace Op

variable {α : Type}

/-- The values of an operation, one for each parameter of its verb. -/
def values : Op α → List (Value α)
  | build a b | deleteRows a b | fillRows a b => [.count a, .count b]
  | deleteTiles cols row | fillTiles cols row => [.columns cols, .count row]
  | randomHoles percent => [.number percent]
  | jumpGaps n | marginStart n | marginEnd n | smoothColumns n | smoothHeights n => [.count n]
  | curve a b side degrees => [.count a, .count b, .side side, .number degrees]
  | sBend a b degrees gain ratio =>
    [.count a, .count b, .number degrees, .number gain, .number ratio]
  | slopes low high segment => [.number low, .number high, .count segment]
  | seed value => [.seed value]
  | fork a b gapStart gapEnd => [.count a, .count b, .number gapStart, .number gapEnd]
  | rejoin a b target => [.count a, .count b, .number target]
  | fillAll => []

/-- The operation of a verb with the given values, if they are of the kinds of its parameters. -/
def ofValues? : Verb → List (Value α) → Option (Op α)
  | .build, [.count rows, .count cols] => some (build rows cols)
  | .deleteRows, [.count a, .count b] => some (deleteRows a b)
  | .deleteTiles, [.columns cols, .count row] => some (deleteTiles cols row)
  | .randomHoles, [.number percent] => some (randomHoles percent)
  | .jumpGaps, [.count n] => some (jumpGaps n)
  | .curve, [.count a, .count b, .side s, .number degrees] => some (curve a b s degrees)
  | .sBend, [.count a, .count b, .number degrees, .number gain, .number ratio] =>
    some (sBend a b degrees gain ratio)
  | .slopes, [.number low, .number high, .count segment] => some (slopes low high segment)
  | .marginStart, [.count n] => some (marginStart n)
  | .marginEnd, [.count n] => some (marginEnd n)
  | .smoothColumns, [.count n] => some (smoothColumns n)
  | .seed, [.seed value] => some (seed value)
  | .fork, [.count a, .count b, .number gapStart, .number gapEnd] =>
    some (fork a b gapStart gapEnd)
  | .rejoin, [.count a, .count b, .number target] => some (rejoin a b target)
  | .smoothHeights, [.count n] => some (smoothHeights n)
  | .fillAll, [] => some fillAll
  | .fillRows, [.count a, .count b] => some (fillRows a b)
  | .fillTiles, [.columns cols, .count row] => some (fillTiles cols row)
  | _, _ => none

/-- An operation is determined by its verb and its values. -/
theorem ofValues?_values (op : Op α) : ofValues? op.verb op.values = some op := by
  cases op <;> rfl

/-- There is one value for each parameter. -/
theorem length_values (op : Op α) : op.values.length = op.verb.params.length := by
  cases op <;> rfl

end Op

end Raceway
