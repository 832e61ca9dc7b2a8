import Raceway.Command.Arguments
/-!
# Help

Help is laid out in two columns: what can be written, and what it does. Lines are never broken.

## Main definitions

* `Raceway.HelpTopic.text`: the help on a topic.
* `Raceway.Misuse.message`: the wording of a misuse.
* `Raceway.versionText`: the name and version of the program.
-/

namespace Raceway

/-- The name of the program. -/
def programName : String := "trackedit"

/-- The name and version of the program. -/
def versionText : String := programName ++ " 0.1.0"

/-! ### Columns -/

/-- A text with blanks behind it up to a width. -/
def padTo (width : Nat) (s : String) : String :=
  s ++ String.ofList (List.replicate (width - s.length) ' ')

/-- The width of the widest text. -/
def widest (texts : List String) : Nat :=
  (texts.map String.length).foldl max 0

/-- A row of two columns, the first of which has the given width. -/
def row (width : Nat) (entry : String × String) : String :=
  "  " ++ padTo width entry.1 ++ "  " ++ entry.2

/-- A titled table of two columns. -/
def table (title : String) (entries : List (String × String)) : String :=
  String.intercalate "\n" (title :: entries.map (row (widest (entries.map Prod.fst))))

/-! ### Contents -/

/-- What a task does. -/
def TaskKind.about : TaskKind → String
  | edit => "Apply one edit request to the persisted plan and execute it"
  | print => "Print the persisted plan"
  | replay => "Re-execute the persisted plan without changing it"

/-- What the help does. -/
def helpAbout : String :=
  "Print this message or the help of the given subcommand(s)"

/-- What a setting does. -/
def Setting.about : Setting → String
  | plan => "Persisted plan file [default: track.plan]"
  | seedLog => "Append-only log of synthesized seeds (JSON lines) [default: track.seeds.jsonl]"
  | rules => "Rule repository JSON. The built-in rules are used when omitted"
  | snapshot => "Write a compressed grid snapshot here after the command"

/-- What a switch does. -/
def Switch.about : Switch → String
  | strict => "Reject the persisted plan if any line fails to parse"
  | json => "Print results as JSON"
  | verbose => "Log pipeline stages at debug level"

/-- A flag in the first column, behind the room for its letter. -/
def flagEntry (letter : Option Char) (flag : String) : String :=
  (match letter with
    | some c => String.ofList ['-', c, ',', ' ']
    | none => "    ") ++ flag

/-- The table of flags, in front of a task or behind one. -/
def flagTable (scope : Option TaskKind) : String :=
  table "Options:"
    (Setting.all.map (fun s => (flagEntry none s.flag, s.about))
      ++ Switch.all.map (fun s => (flagEntry s.letter? s.flag, s.about))
      ++ [(flagEntry (some 'h') "--help", "Print help")]
      ++ if scope.isNone then [(flagEntry (some 'V') "--version", "Print version")] else [])

/-- The table of tasks. -/
def taskTable : String :=
  table "Commands:" (TaskKind.all.map (fun k => (k.word, k.about)) ++ [(helpWord, helpAbout)])

/-- The parts of the help on a topic: what it does, how it is called, and its tables. -/
def HelpTopic.parts : HelpTopic → String × String × List String
  | program => ("Edit a tile track with plain-language commands", " [OPTIONS] <COMMAND>",
      [taskTable, flagTable none])
  | task .edit => (TaskKind.about .edit, " edit [OPTIONS] <TEXT>",
      [table "Arguments:" [("<TEXT>", "The request, e.g. \"build 80 by 3 with 5 jump gaps\"")],
        flagTable (some .edit)])
  | task kind => (kind.about, " " ++ kind.word ++ " [OPTIONS]", [flagTable (some kind)])
  | help => (helpAbout, " help [COMMAND]...",
      [table "Arguments:" [("[COMMAND]...", "Print help for the subcommand(s)")]])

/-- The help on a topic. -/
def HelpTopic.text (topic : HelpTopic) : String :=
  let (about, usage, tables) := topic.parts
  String.intercalate "\n\n" ([about, "Usage: " ++ programName ++ usage] ++ tables)

/-- The wording of a misuse. -/
def Misuse.message : Misuse → String
  | missingText => "the following required arguments were not provided:\n  <TEXT>"
  | unknownArgument argument => s!"unexpected argument '{argument}' found"
  | unknownTask word => s!"unrecognized subcommand '{word}'"
  | missingValue s => s!"a value is required for '{s.flag}' but none was supplied"
  | repeated flag => s!"the argument '{flag}' cannot be used multiple times"
  | unwantedValue flag value =>
    s!"unexpected value '{value}' for '{flag}' found; no more were expected"
  | missingTask => s!"'{programName}' requires a subcommand but one was not provided"
  | nothing => "there is nothing to do"

/-- What is printed about a misuse. Without any argument, that is the help. -/
def Misuse.text : Misuse → String
  | nothing => HelpTopic.text .program
  | e => s!"error: {e.message}\n\nFor more information, try '--help'."

end Raceway
