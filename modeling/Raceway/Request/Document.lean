import Raceway.Json.Reader
import Raceway.Request.Rulebook
/-!
# Rulebooks as documents

A rulebook is written as a document: a version, an object of synonyms, and three lists of rules. A
rule gives the operations of its matches in two ways, by patches that set one argument each, and by
whole operations. Everything that can be checked without a request is checked on reading.

## Main definitions

* `Raceway.RulebookEntry`: the shape of a document.
* `Raceway.Rulebook.ofText`: reading and checking.
-/

namespace Raceway

open Json

/-! ### The shape of a document -/

/-- A patch, which sets one argument of an operation. -/
structure PatchEntry where
  /-- What the patch does. -/
  op : String := ""
  /-- The operation and the parameter. -/
  path : String := ""
  /-- The argument. -/
  value : Node := .null

/-- An operation with its arguments. -/
structure OpEntry where
  /-- The name of the verb. -/
  op : String := ""
  /-- The arguments by the names of their parameters. -/
  args : List (String × Node) := []

/-- A rule. -/
structure RuleEntry where
  /-- The name of the rule. -/
  name : String := ""
  /-- The pattern. -/
  regex : String := ""
  /-- The patches. -/
  patches : List PatchEntry := []
  /-- The operations. -/
  kernel : List OpEntry := []

/-- A rulebook. -/
structure RulebookEntry where
  /-- The version of the format. -/
  version : Nat := 1
  /-- The synonyms, sorted. -/
  synonyms : List (String × String) := []
  /-- The first list of rules. -/
  intents : List RuleEntry := []
  /-- The second list of rules. -/
  commands : List RuleEntry := []
  /-- The third list of rules. -/
  composites : List RuleEntry := []

/-- The levels that may be nested in the value of a patch, which is itself inside five levels. -/
def patchLevels : Nat := 122

/-- The levels that may be nested in an argument of an operation, which is itself inside six
levels. -/
def opLevels : Nat := 121

/-- Read a patch. -/
def PatchEntry.reader : Reader PatchEntry :=
  Reader.record "struct PatchDoc"
    [⟨"op", fun d => return { d with op := ← Reader.str }, false⟩,
      ⟨"path", fun d => return { d with path := ← Reader.str }, false⟩,
      ⟨"value", fun d => return { d with value := ← Reader.node patchLevels }, false⟩] {}

/-- Read an operation. -/
def OpEntry.reader : Reader OpEntry :=
  Reader.record "struct KernelDoc"
    [⟨"op", fun d => return { d with op := ← Reader.str }, false⟩,
      ⟨"args", fun d => return { d with args := ← Reader.dict (Reader.node opLevels) }, true⟩]
    {}

/-- Read a rule. -/
def RuleEntry.reader : Reader RuleEntry :=
  Reader.record "struct RuleDoc"
    [⟨"name", fun d => return { d with name := ← Reader.str }, false⟩,
      ⟨"regex", fun d => return { d with regex := ← Reader.str }, false⟩,
      ⟨"ops", fun d => return { d with patches := ← Reader.elements PatchEntry.reader }, true⟩,
      ⟨"kernel", fun d => return { d with kernel := ← Reader.elements OpEntry.reader }, true⟩]
    {}

/-- Read a rulebook. -/
def RulebookEntry.reader : Reader RulebookEntry :=
  Reader.record "struct RepositoryDoc"
    [⟨"version", fun d => return { d with version := ← Reader.word 32 }, true⟩,
      ⟨"synonyms", fun d => return { d with synonyms := ← Reader.dict Reader.str }, true⟩,
      ⟨"intents", fun d => return { d with intents := ← Reader.elements RuleEntry.reader }, true⟩,
      ⟨"commands", fun d => return { d with commands := ← Reader.elements RuleEntry.reader }, true⟩,
      ⟨"macros", fun d => return { d with composites := ← Reader.elements RuleEntry.reader }, true⟩]
    {}

/-! ### Checking a rule -/

/-- The verb with the given name. -/
def verbNamed (name : String) : Except RuleError Verb :=
  match Verb.ofName? name with
  | some verb => .ok verb
  | none => .error (.unknownOp name)

/-- Check an argument of a template, in a rule whose pattern has the given number of groups. -/
def checkArg (verb : Verb) (groups : Nat) (param : String) (n : Node) :
    Except RuleError TemplateArg :=
  if (verb.param? param).isNone then .error (.unknownParam verb param)
  else
    match TemplateArg.ofNode n with
    | .error e => .error (.badArg verb param e)
    | .ok spec =>
      match spec.capture? with
      | some index =>
        if index > groups then .error (.missingGroup verb param index groups) else .ok spec
      | none => .ok spec

/-- The operation and the parameter of the path of a patch. -/
def splitPath? (path : List Char) : Option (String × String) :=
  match path with
  | '/' :: rest =>
    match rest.span (· != '/') with
    | (op, _ :: param) =>
      if op ≠ [] ∧ param ≠ [] ∧ !param.contains '/' then
        some (String.ofList op, String.ofList param)
      else none
    | _ => none
  | _ => none

/-- Add an argument to the last template if it is one of the verb, else start a new one. The last
template comes first. -/
def addArg (templates : List Template) (verb : Verb) (arg : String × TemplateArg) : List Template :=
  match templates with
  | last :: before =>
    if last.verb = verb then { last with args := last.args ++ [arg] } :: before
    else ⟨verb, [arg]⟩ :: templates
  | [] => [⟨verb, [arg]⟩]

/-- Add what a patch sets to the templates, of which the last one comes first. -/
def PatchEntry.addTo (groups : Nat) (templates : List Template) (d : PatchEntry) :
    Except RuleError (List Template) := do
  if !(["set", "replace", "add"].contains d.op) then throw (.patchOp d.op)
  match splitPath? d.path.toList with
  | none => throw (.patchPath d.path)
  | some (op, param) => do
    let verb ← verbNamed op
    let spec ← checkArg verb groups param d.value
    return addArg templates verb (param, spec)

/-- The template of an operation. -/
def OpEntry.template (groups : Nat) (d : OpEntry) : Except RuleError Template := do
  let verb ← verbNamed d.op
  let args ← d.args.mapM fun (param, n) => do
    let spec ← checkArg verb groups param n
    return (param, spec)
  return ⟨verb, args⟩

/-- The flags of the patterns of rules: any letter case, and anchors at each line. -/
def ruleFlags : Flags :=
  { ignoreCase := true, multiLine := true }

/-- The pattern of a rule. -/
def RuleEntry.pattern (d : RuleEntry) : Except RuleError Pattern :=
  match Pattern.ofText ruleFlags d.regex.toList with
  | .ok p => .ok p
  | .error e => .error (.pattern d.regex e)

/-- Check a rule. -/
def RuleEntry.rule (list : RuleList) (d : RuleEntry) : Except RuleError Rule := do
  let p ← d.pattern
  let patched ← d.patches.foldlM (PatchEntry.addTo p.groupCount) []
  let whole ← d.kernel.mapM (OpEntry.template p.groupCount)
  let templates := patched.reverse ++ whole
  if templates.isEmpty then throw .noOps
  return ⟨d.name, list, d.regex, p, templates⟩

/-! ### Checking a rulebook -/

namespace Rulebook

/-- The version of the format. -/
def supportedVersion : Nat := 1

/-- Check a synonym. -/
def synonym (entry : String × String) : Except RulebookError Synonym :=
  let s : Synonym := ⟨entry.1, entry.2⟩
  if s.words.isEmpty then .error (.emptyAlias entry.1) else .ok s

/-- Check rules, none of which may have a name that is taken. -/
def checkRules : List String → List (RuleList × RuleEntry) → Except RulebookError (List Rule)
  | _, [] => .ok []
  | taken, (list, d) :: rest =>
    if taken.contains d.name then .error (.rule d.name .duplicateName)
    else
      match d.rule list with
      | .error e => .error (.rule d.name e)
      | .ok rule => (checkRules (d.name :: taken) rest).map (rule :: ·)

/-- The rules of a document in the order in which they are matched. -/
def orderedRules (d : RulebookEntry) : List (RuleList × RuleEntry) :=
  d.intents.map (RuleList.intents, ·) ++ d.commands.map (RuleList.commands, ·)
    ++ d.composites.map (RuleList.composites, ·)

/-- Check a rulebook. -/
def ofDoc (d : RulebookEntry) : Except RulebookError Rulebook := do
  if d.version > supportedVersion then throw (.version d.version supportedVersion)
  let synonyms ← d.synonyms.mapM synonym
  let rules ← checkRules [] (orderedRules d)
  return ⟨d.version, synonyms.mergeSort Synonym.before, rules⟩

/-- Read a rulebook. -/
def ofText (text : List Char) : Except RulebookError Rulebook :=
  match Reader.run RulebookEntry.reader text with
  | .ok d => ofDoc d
  | .error e => .error (.json e)

end Rulebook

end Raceway
