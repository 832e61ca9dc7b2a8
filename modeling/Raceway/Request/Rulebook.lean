import Raceway.Json.Reader
import Raceway.Pattern.Parser
import Raceway.Request.Spec
/-!
# Rulebooks

A rulebook says how requests are understood. Synonyms replace words by other words. A rule has a
pattern, and templates of operations that are filled in for each match. The rules are matched list
by list, in the order of the lists.

## Main definitions

* `Raceway.Template`, `Raceway.Rule`, `Raceway.Synonym` and `Raceway.Rulebook`.
* `Raceway.RuleError`: why a rule cannot be used.
* `Raceway.Rulebook.replaceSynonyms`: a text with its synonyms replaced.
-/

namespace Raceway

open Text

/-! ### Rules -/

/-- A list of rules. The lists are matched in this order. -/
inductive RuleList where
  | intents
  | commands
  | composites
deriving DecidableEq, Repr

/-- An operation that a match stands for, with arguments still to be resolved. -/
structure Template where
  /-- The verb of the operation. -/
  verb : Verb
  /-- The arguments by the names of their parameters. -/
  args : List (String × TemplateArg)

/-- A rule. -/
structure Rule where
  /-- The name of the rule. -/
  name : String
  /-- The list that the rule comes from. -/
  list : RuleList
  /-- The pattern as it is written. -/
  source : String
  /-- The pattern. -/
  pattern : Pattern
  /-- The operations that each match stands for. -/
  templates : List Template

/-- Words that stand for other words. -/
structure Synonym where
  /-- The words to be replaced. -/
  phrase : String
  /-- The words that replace them. -/
  canonical : String

/-- A set of rules and synonyms. -/
structure Rulebook where
  /-- The version of the format. -/
  version : Nat
  /-- The synonyms in the order in which they are applied. -/
  synonyms : List Synonym
  /-- The rules in the order in which they are matched. -/
  rules : List Rule

/-! ### Errors -/

/-- Why a rule cannot be used. -/
inductive RuleError where
  /-- Another rule has the same name. -/
  | duplicateName
  /-- The pattern is not well formed. -/
  | pattern (source : String) (e : PatternError)
  /-- A patch does something else than setting a value. -/
  | patchOp (op : String)
  /-- The path of a patch is not an operation and a parameter. -/
  | patchPath (path : String)
  /-- No verb has the name. -/
  | unknownOp (op : String)
  /-- The verb has no parameter of the name. -/
  | unknownParam (verb : Verb) (param : String)
  /-- The argument of a parameter cannot be read. -/
  | badArg (verb : Verb) (param : String) (e : TemplateArgError)
  /-- The argument of a parameter refers to a group that the pattern does not have. -/
  | missingGroup (verb : Verb) (param : String) (index count : Nat)
  /-- The rule has no templates. -/
  | noOps

/-- The wording of a rule error. -/
def RuleError.message : RuleError → String
  | duplicateName => "duplicate rule name"
  | pattern source e => s!"invalid regex: {e.message source}"
  | patchOp op => s!"unsupported patch op `{op}`"
  | patchPath path => s!"patch path `{path}` is not `/op/param`"
  | unknownOp op => s!"unknown op `{op}`"
  | unknownParam verb param => s!"`{verb.name}` has no parameter `{param}`"
  | badArg verb param e => s!"`{verb.name}.{param}`: {e.message}"
  | missingGroup verb param index count =>
    s!"`{verb.name}.{param}` references capture ${index} but the regex has {count} group(s)"
  | noOps => "rule produces no ops"

/-- Why a rulebook cannot be used. -/
inductive RulebookError where
  /-- The file cannot be read. -/
  | unreadable (path reason : String)
  /-- The text is not a document of the right shape. -/
  | json (e : Json.ReadError)
  /-- The version is newer than the one supported. -/
  | version (found supported : Nat)
  /-- A synonym has nothing to replace. -/
  | emptyAlias (phrase : String)
  /-- A rule cannot be used. -/
  | rule (name : String) (e : RuleError)

/-- The wording of a rulebook error. -/
def RulebookError.message : RulebookError → String
  | unreadable path reason => s!"cannot read rule repository {path}: {reason}"
  | json e => s!"rule repository JSON error: {e.message}"
  | version found supported =>
    s!"rule repository version {found} is newer than supported version {supported}"
  | emptyAlias phrase => s!"synonym `{phrase}`: alias is empty"
  | rule name e => s!"rule `{name}`: {e.message}"

/-! ### Synonyms -/

namespace Synonym

/-- The words to be replaced, without the blanks around them. -/
def words (s : Synonym) : List Char :=
  trim s.phrase.toList

/-- The pattern of a synonym: its words as whole words, in any letter case. -/
def pattern (s : Synonym) : Pattern :=
  let edge := Pattern.assert (.wordEdge .word)
  .sequence [edge, .anyCase s.words, edge]

/-- Replace the words of a synonym in a text. -/
def apply (s : Synonym) (text : List Char) : List Char :=
  s.pattern.replaceAll (fun _ => s.canonical.toList) text

/-- The order of synonyms: the longer one, in bytes, comes first; of two of one length, the first in
the order of characters. -/
def before (a b : Synonym) : Bool :=
  a.phrase.utf8ByteSize > b.phrase.utf8ByteSize
    || (a.phrase.utf8ByteSize == b.phrase.utf8ByteSize && !(b.phrase < a.phrase))

end Synonym

namespace Rulebook

/-- The text with all synonyms replaced, one after the other. -/
def replaceSynonyms (book : Rulebook) (text : List Char) : List Char :=
  book.synonyms.foldl (fun text s => s.apply text) text

end Rulebook

end Raceway
