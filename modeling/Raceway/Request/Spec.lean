import Raceway.Json.Node
import Raceway.Pattern.Search
import Raceway.Request.Cast
/-!
# Arguments of templates

An argument of a template is a fixed value, or refers to a group of the pattern of its rule and
names the type that the text of the group is cast to.

## Main definitions

* `Raceway.TemplateArg`: an argument of a template.
* `Raceway.TemplateArg.ofNode`: reading one from a document.
* `Raceway.TemplateArg.resolve`: the argument for a match.
-/

namespace Raceway

open Json Decimal

/-- An argument of a template. -/
inductive TemplateArg where
  /-- A fixed value. -/
  | fixed (value : Arg)
  /-- The text of a group, cast to a type. -/
  | capture (index : Nat) (type : CaptureType)

/-- Why a document is no argument of a template. -/
inductive TemplateArgError where
  /-- The number of the group cannot be read. -/
  | badReference (raw : String)
  /-- No type has the name. -/
  | unknownType (raw type : String)
  /-- An item of a list is no integer. -/
  | badItem (item : Node)
  /-- The document has another shape. -/
  | unsupported (n : Node)

/-- The wording of an error. -/
def TemplateArgError.message : TemplateArgError → String
  | badReference raw => s!"`{raw}` is not a capture reference"
  | unknownType raw type => s!"`{raw}`: unknown type `{type}`"
  | badItem item => s!"list literal item {item.compact} is not an integer"
  | unsupported n => s!"unsupported argSpec {n.compact}"

namespace TemplateArg

/-- Read the number of a group, within 64 bits; a plus may stand in front. -/
def readIndex? (text : List Char) : Option Nat :=
  let digits := CaptureType.dropSign '+' text
  if digits ≠ [] ∧ digits.all Char.isDigit ∧ digitsValue digits < UInt64.size then
    some (digitsValue digits)
  else none

/-- Read a reference to a group behind its sign: a number, and possibly a type behind a colon. -/
def ofReference (raw : String) (body : List Char) : Except TemplateArgError TemplateArg :=
  let (index, type) := match body.span (· != ':') with
    | (index, _ :: type) => (index, String.ofList type)
    | (index, []) => (index, CaptureType.string.name)
  match readIndex? index with
  | none => .error (.badReference raw)
  | some index =>
    match CaptureType.ofName? type with
    | some type => .ok (.capture index type)
    | none => .error (.unknownType raw type)

/-- The integer of a document, within 64 bits. -/
def nodeInt? : Node → Option Int
  | .int n => if n ≤ maxInt64 then some n else none
  | _ => none

/-- Read the items of a list of integers. -/
def nodeInts : List Node → Except TemplateArgError (List Int)
  | [] => .ok []
  | item :: rest =>
    match nodeInt? item with
    | some n => (nodeInts rest).map (n :: ·)
    | none => .error (.badItem item)

/-- Read an argument of a template. A text with a dollar sign in front is a reference; an integer
beyond 64 bits with sign is a number. -/
def ofNode (n : Node) : Except TemplateArgError TemplateArg :=
  match n with
  | .str s =>
    match s.toList with
    | '$' :: body => ofReference s body
    | _ => .ok (.fixed (.str s))
  | .bool b => .ok (.fixed (.bool b))
  | .int i =>
    if i ≤ maxInt64 then .ok (.fixed (.int i)) else .ok (.fixed (.float (doubleOfInt i)))
  | .double x => .ok (.fixed (.float x))
  | .list items => (nodeInts items).map fun l => .fixed (.list l)
  | other => .error (.unsupported other)

/-- The group that an argument refers to. -/
def capture? : TemplateArg → Option Nat
  | fixed _ => none
  | capture index _ => some index

end TemplateArg

/-- The text of a group that cannot be cast. -/
structure CaptureError where
  /-- The number of the group. -/
  index : Nat
  /-- The type. -/
  type : CaptureType
  /-- The text. -/
  text : String

/-- The wording of a failure. -/
def CaptureError.message (e : CaptureError) : String :=
  s!"capture ${e.index} = `{e.text}` is not a valid {e.type.name}"

/-- The argument for a match. A group that the match has not passed through leaves the argument
out. -/
def TemplateArg.resolve (m : Match) : TemplateArg → Except CaptureError (Option Arg)
  | fixed value => .ok (some value)
  | capture index type =>
    match m.group? index with
    | none => .ok none
    | some text =>
      match type.cast? text with
      | some value => .ok (some value)
      | none => .error ⟨index, type, String.ofList text⟩

end Raceway
