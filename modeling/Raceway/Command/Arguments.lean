import Raceway.Session.Workshop
/-!
# Command-line arguments

The arguments name a task, in front of which and behind which settings and switches can stand. A
setting takes the next argument as its value, or what stands behind an equals sign. What is chosen
behind the task goes before what is chosen in front of it. Behind two dashes, no argument is a
setting or a switch.

The value of a setting is taken in as soon as the next flag, or the text of a request, is read, and
at the end of the arguments. The settings and switches behind a task are read apart from those in
front of it, so that each of them can be given on both sides.

## Main definitions

* `Raceway.Invocation`: what the arguments ask for.
* `Raceway.Stop`: why there is nothing to be done.
* `Raceway.Invocation.ofArguments`: reading the arguments.
-/

namespace Raceway

/-! ### What can be asked for -/

/-- The kind of a task. -/
inductive TaskKind where
  /-- Carry out a request. -/
  | edit
  /-- Print the plan. -/
  | print
  /-- Carry out the plan. -/
  | replay
deriving DecidableEq, Repr

/-- A task. -/
inductive Task where
  /-- Carry out a request. -/
  | edit (text : String)
  /-- Print the plan. -/
  | print
  /-- Carry out the plan. -/
  | replay
deriving DecidableEq, Repr

/-- A flag with a value. -/
inductive Setting where
  | plan
  | seedLog
  | rules
  | snapshot
deriving DecidableEq, Repr

/-- A flag without a value. -/
inductive Switch where
  | strict
  | json
  | verbose
deriving DecidableEq, Repr

/-- What the arguments ask for. -/
structure Invocation where
  /-- The task. -/
  task : Task
  /-- Where the files are. -/
  places : Places
  /-- How the kept plan is read. -/
  mode : ReadMode
  /-- Results are printed as documents. -/
  json : Bool
  /-- More is logged. -/
  verbose : Bool
deriving DecidableEq, Repr

/-- What help is about. -/
inductive HelpTopic where
  /-- The whole program. -/
  | program
  /-- A task. -/
  | task (kind : TaskKind)
  /-- The help itself. -/
  | help
deriving DecidableEq, Repr

/-! ### Misuse -/

/-- What is wrong with the arguments. -/
inductive Misuse where
  /-- A request has no text. -/
  | missingText
  /-- An argument has no meaning. -/
  | unknownArgument (argument : String)
  /-- There is no such task. -/
  | unknownTask (word : String)
  /-- A setting has no value, or an empty one. -/
  | missingValue (setting : Setting)
  /-- A flag is given twice. -/
  | repeated (flag : String)
  /-- A flag without a value is given one. -/
  | unwantedValue (flag value : String)
  /-- There are flags, and no task. -/
  | missingTask
  /-- There is nothing at all. -/
  | nothing
deriving DecidableEq, Repr

/-- Why there is nothing to be done. -/
inductive Stop where
  /-- Help is asked for. -/
  | help (topic : HelpTopic)
  /-- The version is asked for. -/
  | version
  /-- Something is wrong. -/
  | misuse (e : Misuse)
deriving DecidableEq, Repr

/-! ### Words -/

namespace TaskKind

/-- The word for a task. -/
def word : TaskKind → String
  | edit => "edit"
  | print => "show"
  | replay => "replay"

/-- All tasks. -/
def all : List TaskKind :=
  [edit, print, replay]

/-- The task with the given word. -/
def ofWord? (word : String) : Option TaskKind :=
  all.find? (·.word == word)

end TaskKind

/-- The word that asks for help in the place of a task. -/
def helpWord : String := "help"

/-- The argument is a word that can stand in the place of a task. -/
def isTaskWord (argument : String) : Bool :=
  argument == helpWord || (TaskKind.ofWord? argument).isSome

namespace Setting

/-- The word for a setting. -/
def word : Setting → String
  | plan => "plan"
  | seedLog => "seed-log"
  | rules => "rules"
  | snapshot => "snapshot"

/-- The word that stands for the value of a setting. -/
def valueWord : Setting → String
  | plan => "PLAN"
  | seedLog => "SEED_LOG"
  | rules => "RULES"
  | snapshot => "SNAPSHOT"

/-- All settings. -/
def all : List Setting :=
  [plan, seedLog, rules, snapshot]

/-- A setting as it is written. -/
def flag (s : Setting) : String :=
  s!"--{s.word} <{s.valueWord}>"

end Setting

namespace Switch

/-- The word for a switch. -/
def word : Switch → String
  | strict => "strict"
  | json => "json"
  | verbose => "verbose"

/-- The letter for a switch, if there is one. -/
def letter? : Switch → Option Char
  | verbose => some 'v'
  | _ => none

/-- All switches. -/
def all : List Switch :=
  [strict, json, verbose]

/-- A switch as it is written. -/
def flag (s : Switch) : String :=
  s!"--{s.word}"

end Switch

/-- A flag. -/
inductive Flag where
  | setting (s : Setting)
  | switch (s : Switch)
  | help
  | version
deriving DecidableEq, Repr

namespace Flag

/-- The flag with the given word, in front of a task or behind one. The version is only known in
front. -/
def ofWord? (scope : Option TaskKind) (word : String) : Option Flag :=
  match Setting.all.find? (·.word == word), Switch.all.find? (·.word == word) with
  | some s, _ => some (setting s)
  | _, some s => some (switch s)
  | _, _ =>
    if word = "help" then some help
    else if word = "version" ∧ scope.isNone then some version
    else none

/-- The flag with the given letter, in front of a task or behind one. -/
def ofLetter? (scope : Option TaskKind) (c : Char) : Option Flag :=
  match Switch.all.find? (·.letter? == some c) with
  | some s => some (switch s)
  | none =>
    if c = 'h' then some help
    else if c = 'V' ∧ scope.isNone then some version
    else none

/-- A flag without a value as it is written. -/
def name : Flag → String
  | setting s => s.flag
  | switch s => s.flag
  | help => "--help"
  | version => "--version"

end Flag

/-! ### Progress through the arguments -/

/-- What is chosen on one side of the task. -/
structure Chosen where
  /-- The settings and their values. -/
  settings : List (Setting × String) := []
  /-- The switches. -/
  switches : List Switch := []
deriving DecidableEq, Repr

/-- How far the arguments on one side of the task are read. -/
structure Progress where
  /-- What is chosen. -/
  chosen : Chosen := {}
  /-- A setting that is not taken in yet, with its value if that is there. -/
  pending : Option (Setting × Option String) := none
  /-- The text of a request. -/
  text : Option String := none
  /-- All further arguments are taken as they are. -/
  literal : Bool := false
deriving DecidableEq, Repr

namespace Progress

/-- Take in a setting. -/
def choose (p : Progress) (s : Setting) (value : String) : Except Stop Progress :=
  if (p.chosen.settings.lookup s).isSome then .error (.misuse (.repeated s.flag))
  else if value = "" then .error (.misuse (.missingValue s))
  else .ok { p with chosen := { p.chosen with settings := p.chosen.settings ++ [(s, value)] } }

/-- Take in the setting that is not taken in yet. -/
def settle (p : Progress) : Except Stop Progress :=
  match p.pending with
  | none => .ok p
  | some (s, none) => .error (.misuse (.missingValue s))
  | some (s, some value) => { p with pending := none }.choose s value

/-- Take in a switch. -/
def turnOn (p : Progress) (s : Switch) : Except Stop Progress :=
  if p.chosen.switches.contains s then .error (.misuse (.repeated s.flag))
  else .ok { p with chosen := { p.chosen with switches := p.chosen.switches ++ [s] } }

/-- The last argument is a setting whose value is still to come. -/
def awaitsValue (p : Progress) : Bool :=
  match p.pending with
  | some (_, none) => true
  | _ => false

/-- Help on a task, or on the program in front of one. -/
def helpTopic (scope : Option TaskKind) : HelpTopic :=
  match scope with
  | some kind => .task kind
  | none => .program

/-- Take in a flag, with its value if one is attached. -/
def addFlag (scope : Option TaskKind) (p : Progress) (f : Flag) (value : Option String) :
    Except Stop Progress :=
  match f, value with
  | .setting s, some value => do (← p.settle).choose s value
  | .setting s, none => do return { ← p.settle with pending := some (s, none) }
  | f, some value => .error (.misuse (.unwantedValue f.name value))
  | .switch s, none => do (← p.settle).turnOn s
  | .help, none => do
    discard p.settle
    throw (.help (helpTopic scope))
  | .version, none => do
    discard p.settle
    throw .version

/-- Take in an argument that starts with two dashes, without them. -/
def addWord (scope : Option TaskKind) (p : Progress) (body : List Char) : Except Stop Progress :=
  let (word, rest) := body.span (· != '=')
  match Flag.ofWord? scope (String.ofList word), rest with
  | none, _ => .error (.misuse (.unknownArgument (String.ofList ('-' :: '-' :: word))))
  | some f, [] => p.addFlag scope f none
  | some f, _ :: value => p.addFlag scope f (some (String.ofList value))

/-- Take in the letters of an argument that starts with a dash. -/
def addLetters (scope : Option TaskKind) (p : Progress) : List Char → Except Stop Progress
  | [] => .ok p
  | c :: rest =>
    match Flag.ofLetter? scope c with
    | none => .error (.misuse (.unknownArgument (String.ofList ['-', c])))
    | some f => do addLetters scope (← p.addFlag scope f none) rest

/-- Take in an argument that is no flag. Only a request has a text. -/
def addText (scope : Option TaskKind) (p : Progress) (argument : String) : Except Stop Progress :=
  match scope, p.text with
  | some .edit, none => do return { ← p.settle with text := some argument }
  | some _, _ => .error (.misuse (.unknownArgument argument))
  | none, _ =>
    if p.literal && isTaskWord argument then .error (.misuse (.unknownArgument argument))
    else .error (.misuse (.unknownTask argument))

/-- Take in an argument. -/
def add (scope : Option TaskKind) (p : Progress) (argument : String) : Except Stop Progress :=
  if p.literal then p.addText scope argument
  else
    match argument.toList with
    | ['-', '-'] => .ok { p with literal := true }
    | '-' :: '-' :: body => p.addWord scope body
    | '-' :: c :: letters => p.addLetters scope (c :: letters)
    | _ =>
      match p.pending with
      | some (s, none) => .ok { p with pending := some (s, some argument) }
      | _ => p.addText scope argument

end Progress

/-! ### Whole arguments -/

/-- The task of a kind, whose text is read. -/
def TaskKind.task (kind : TaskKind) (text : Option String) : Except Stop Task :=
  match kind, text with
  | edit, some text => .ok (.edit text)
  | edit, none => .error (.misuse .missingText)
  | print, _ => .ok .print
  | replay, _ => .ok .replay

/-- The help that further arguments ask for. -/
def helpStop : List String → Stop
  | [] => .help .program
  | word :: rest =>
    if !isTaskWord word then .misuse (.unknownTask word)
    else
      match TaskKind.ofWord? word, rest with
      | some kind, [] => .help (.task kind)
      | none, [] => .help .help
      | _, further :: _ => .misuse (.unknownTask further)

namespace Invocation

/-- The invocation of a task, given what is chosen in front of it and behind it. -/
def ofChosen (task : Task) (front back : Chosen) : Invocation :=
  let value (s : Setting) := (back.settings.lookup s).or (front.settings.lookup s)
  let isOn (s : Switch) := front.switches.contains s || back.switches.contains s
  let standard : Places := {}
  let places : Places :=
    ⟨(value .plan).getD standard.plan, (value .seedLog).getD standard.seedLog, value .rules,
      value .snapshot⟩
  ⟨task, places, if isOn .strict then .strict else .lenient, isOn .json, isOn .verbose⟩

/-- Read the arguments behind a task. -/
def ofTask (kind : TaskKind) (front : Progress) (arguments : List String) :
    Except Stop Invocation := do
  let back ← arguments.foldlM (Progress.add (some kind)) {}
  let back ← back.settle
  let task ← kind.task back.text
  let front ← front.settle
  return ofChosen task front.chosen back.chosen

/-- There is no task. -/
def withoutTask (front : Progress) : Except Stop Invocation := do
  let front ← front.settle
  throw (.misuse (if front.chosen = {} then .nothing else .missingTask))

/-- Read the arguments from the given progress on. -/
def ofProgress (front : Progress) : List String → Except Stop Invocation
  | [] => withoutTask front
  | argument :: rest =>
    if front.literal || front.awaitsValue || !isTaskWord argument then do
      ofProgress (← front.add none argument) rest
    else
      match TaskKind.ofWord? argument with
      | some kind => ofTask kind front rest
      | none => .error (helpStop rest)

/-- Read the arguments. -/
def ofArguments (arguments : List String) : Except Stop Invocation :=
  ofProgress {} arguments

end Invocation

end Raceway
