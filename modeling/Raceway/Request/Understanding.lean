import Raceway.Plan.Amend
import Raceway.Request.Rulebook
/-!
# Understanding a request

A request is matched against a rulebook. Every rule gives the operations of its templates for all of
its matches, or none at all if one of them cannot be filled in. Words of the request that no match
covers are reported, unless they are numbers, signs or units.

## Main definitions

* `Raceway.Template.fill`: the operation of a template for a match.
* `Raceway.Rule.ops`: the operations of a rule for a text.
* `Raceway.uncovered`: the words that no match covers.
* `Raceway.understand`: all that a request asks for.
-/

namespace Raceway

open Text

/-! ### Operations of a rule -/

/-- Why a template cannot be filled in. -/
inductive FillError where
  /-- The text of a group cannot be cast. -/
  | cast (e : CaptureError)
  /-- The arguments do not make an operation. -/
  | bind (e : CallError)

/-- The wording of an error. -/
def FillError.message : FillError → String
  | cast e => e.message
  | bind e => e.message

/-- The arguments of a template for a match, those left out apart. -/
def Template.arguments (m : Match) : List (String × TemplateArg) →
    Except CaptureError (List (String × Arg))
  | [] => .ok []
  | (param, spec) :: rest =>
    match spec.resolve m with
    | .error e => .error e
    | .ok none => Template.arguments m rest
    | .ok (some value) => (Template.arguments m rest).map ((param, value) :: ·)

/-- The operation of a template for a match. -/
def Template.fill (m : Match) (t : Template) : Except FillError (Op Float) :=
  match Template.arguments m t.args with
  | .error e => .error (.cast e)
  | .ok keyed =>
    match Op.ofCall ⟨t.verb.name, [], keyed⟩ with
    | .ok op => .ok op
    | .error e => .error (.bind e)

/-- A rule whose templates cannot be filled in for a match. -/
structure RuleFailure where
  /-- The name of the rule. -/
  rule : String
  /-- The text of the match. -/
  matched : String
  /-- Why a template cannot be filled in. -/
  reason : FillError

/-- The wording of a failure. -/
def RuleFailure.message (e : RuleFailure) : String :=
  s!"rule `{e.rule}` dropped on `{e.matched}`: {e.reason.message}"

/-- The operations of a rule for a match. -/
def Rule.matchOps (rule : Rule) (m : Match) : Except RuleFailure (List (Op Float)) :=
  match rule.templates.mapM (Template.fill m) with
  | .ok ops => .ok ops
  | .error e => .error ⟨rule.name, String.ofList m.text, e⟩

/-- The operations of a rule for some matches: those of all templates for all matches. -/
def Rule.ops (rule : Rule) (found : List Match) : Except RuleFailure (List (Op Float)) :=
  (found.mapM rule.matchOps).map List.flatten

/-! ### Words that are not covered -/

/-- The tokens of a text: words, numbers, and single signs. -/
def tokenPattern : Pattern :=
  let letter := Pattern.one (.union (.property (.category
    [.uppercaseLetter, .lowercaseLetter, .titlecaseLetter, .modifierLetter, .otherLetter]))
    (.single '_'))
  let number := Pattern.one (.property (.category [.decimalNumber, .letterNumber, .otherNumber]))
  let numbers := Pattern.plus true number
  .oneOf [.plus true letter,
    .seq numbers (.opt true (.seq (.char '.') numbers)),
    .one (.compl (.property .blank))]

/-- The words for units, which need no explanation. -/
def unitWords : List String :=
  ["m", "meter", "meters", "metre", "metres", "deg", "degree", "degrees", "percent"]

/-- The token needs no explanation: it is a single sign, a number, or a unit. -/
def needsNoExplanation (token : List Char) : Bool :=
  (match token with
    | [c] => !isAlphanumeric c
    | _ => false)
    || token.all (fun c => isNumeric c || c == '.')
    || unitWords.any fun unit => Decimal.isWord unit token

/-- Two matches have a character in common. -/
def Match.overlaps (m n : Match) : Bool :=
  m.start < n.stop && n.start < m.stop

/-- The tokens of a text that no match covers and that need an explanation. -/
def uncovered (text : List Char) (covering : List Match) : List (List Char) :=
  (((tokenPattern.findAll text).filter fun token => !covering.any token.overlaps).map
    Match.text).filter fun token => !needsNoExplanation token

/-! ### Requests -/

/-- The words that ask for a new grid. -/
def creationPattern : Pattern :=
  let edge := Pattern.assert (.wordEdge .word)
  .sequence [edge, .opt true (.anyCase ['r', 'e']), .anyCase ['b', 'u', 'i', 'l', 'd'], edge]

/-- What a request asks for. -/
structure Understanding where
  /-- The operations. -/
  ops : List (Op Float)
  /-- The request asks for a new grid. -/
  creates : Bool
  /-- The rules whose templates could not be filled in. -/
  failures : List RuleFailure
  /-- The words that nothing explains. -/
  unknown : List (List Char)

/-- The failure of a result, if it is one. -/
def failure? {α β : Type} : Except α β → Option α
  | .error e => some e
  | .ok _ => none

/-- What a request asks for, by a rulebook. -/
def understand (book : Rulebook) (request : List Char) : Understanding :=
  let text := book.replaceSynonyms request
  let found := book.rules.map fun rule => (rule, rule.pattern.findAll text)
  let blocks := found.map fun (rule, ms) => rule.ops ms
  let ops := (blocks.filterMap Except.toOption).flatten
  let covering := (found.flatMap Prod.snd).filter fun m => !m.text.isEmpty
  ⟨ops, creationPattern.occursIn text || ops.any Op.isCreate, blocks.filterMap failure?,
    uncovered text covering⟩

end Raceway
