import RobotRoutine.CommandLine.Request

/-!
# Reading arguments

The arguments form levels: what stands in front of the verb, and what follows it. On each level there
are options with and without a value, in a long and some in a short spelling, and after the verb
there may be one operand. An option's value may be attached to it or be the next argument, unless
that looks like an option itself; it is looked at only when something else has been accepted behind
it, so a complaint about an argument that nobody knows comes first.
-/

namespace RobotRoutine.CommandLine

/-- An option without a value. -/
inductive Flag where
  | verbose
  | help
  | version
  | realtime
deriving DecidableEq, Repr

/-- An option with a value. -/
inductive Setting where
  | script
  | config
  | alliance
deriving DecidableEq, Repr

/-- An option. -/
inductive Choice where
  | flag (flag : Flag)
  | setting (setting : Setting)
deriving DecidableEq, Repr

namespace Choice

/-- The long spelling of an option. -/
def name : Choice → String
  | .flag .verbose => "verbose"
  | .flag .help => "help"
  | .flag .version => "version"
  | .flag .realtime => "realtime"
  | .setting .script => "script"
  | .setting .config => "config"
  | .setting .alliance => "alliance"

/-- The short spelling of an option, if it has one. -/
def letter : Choice → Option Char
  | .flag .verbose => some 'v'
  | .flag .help => some 'h'
  | .flag .version => some 'V'
  | .setting .script => some 's'
  | .setting .config => some 'c'
  | .flag .realtime | .setting .alliance => none

end Choice

/-- What the program can be told to do, or told to explain. -/
inductive Verb where
  | check
  | run
  | commands
  | initConfig
  | help
deriving DecidableEq, Repr

namespace Verb

/-- The verb of a name. -/
def ofName? : String → Option Verb
  | "check" => some .check
  | "run" => some .run
  | "commands" => some .commands
  | "init-config" => some .initConfig
  | "help" => some .help
  | _ => none

end Verb

/-- What is understood on a level. -/
structure Level where
  choices : List Choice
  /-- Whether an operand may be given. -/
  takesOperand : Bool
  /-- Whether a verb may be given. -/
  takesVerb : Bool

namespace Level

/-- What stands in front of the verb. -/
def top : Level where
  choices := [.flag .verbose, .flag .help, .flag .version]
  takesOperand := false
  takesVerb := true

/-- What follows a verb. -/
def after : Verb → Level
  | .check => ⟨[.flag .verbose, .flag .help, .setting .config], true, false⟩
  | .run =>
    ⟨[.flag .verbose, .flag .help, .setting .script, .setting .config, .setting .alliance,
      .flag .realtime], false, false⟩
  | .initConfig => ⟨[.flag .verbose, .flag .help], true, false⟩
  | .commands | .help => ⟨[.flag .verbose, .flag .help], false, false⟩

/-- The option with a long spelling. -/
def named? (level : Level) (name : String) : Option Choice :=
  level.choices.find? (·.name = name)

/-- The option with a short spelling. -/
def lettered? (level : Level) (letter : Char) : Option Choice :=
  level.choices.find? (·.letter = some letter)

/-- The complaint about an argument that has no place on a level. -/
def misplaced (level : Level) : Refusal :=
  if level.takesVerb then .unknownVerb else .unknownArgument

end Level

/-- Where a value belongs. -/
inductive Slot where
  | setting (setting : Setting)
  | operand
deriving DecidableEq, Repr

/-- What has been given on a level so far. -/
structure Given where
  verbose : Bool := false
  realtime : Bool := false
  script : Option String := none
  config : Option String := none
  alliance : Option Alliance := none
  operand : Option String := none
  /-- What has been named last, with its value if that has come; nobody has looked at it yet. -/
  pending : Option (Slot × Option String) := none
deriving DecidableEq, Repr

namespace Given

/-- Whether an operand was given. -/
def hasOperand (given : Given) : Bool :=
  given.operand.isSome ||
    match given.pending with
    | some (.operand, _) => true
    | _ => false

/-- A path, which is not empty. -/
def path (text : String) : Except Refusal (Option String) :=
  if text.isEmpty then .error .noValue else .ok (some text)

/-- Puts a value where it belongs. -/
def store (given : Given) (slot : Slot) (text : String) : Except Refusal Given :=
  match slot with
  | .operand => return { given with operand := ← path text }
  | .setting .script =>
    if given.script.isSome then .error .repeated else return { given with script := ← path text }
  | .setting .config =>
    if given.config.isSome then .error .repeated else return { given with config := ← path text }
  | .setting .alliance =>
    if given.alliance.isSome then .error .repeated
    else
      match Alliance.ofText? text with
      | some alliance => .ok { given with alliance }
      | none => .error .notAlliance

/-- Looks at what is pending. -/
def settle (given : Given) : Except Refusal Given :=
  match given.pending with
  | none => .ok given
  | some (_, none) => .error .noValue
  | some (slot, some text) => { given with pending := none }.store slot text

/-- Takes an option without a value. -/
def takeFlag (given : Given) (flag : Flag) : Except Refusal Given := do
  let given ← given.settle
  match flag with
  | .help => throw .helpAsked
  | .version => throw .versionAsked
  | .verbose => if given.verbose then throw .repeated else return { given with verbose := true }
  | .realtime => if given.realtime then throw .repeated else return { given with realtime := true }

/-- Takes an option with a value, which may be attached to it. -/
def takeSetting (given : Given) (setting : Setting) (value : Option String) :
    Except Refusal Given := do
  let given ← given.settle
  match value with
  | some text => given.store (.setting setting) text
  | none => return { given with pending := some (.setting setting, none) }

/-- Takes an option in its long spelling. -/
def takeLong (given : Given) (level : Level) (name : String) (value : Option String) :
    Except Refusal Given :=
  match level.named? name, value with
  | none, _ => .error .unknownArgument
  | some (.flag _), some _ => .error .unwantedValue
  | some (.flag flag), none => given.takeFlag flag
  | some (.setting setting), value => given.takeSetting setting value

/-- Takes options in their short spelling, one letter after another. What follows the letter of an
option with a value is the value, with or without a `=` in between. -/
def takeLetters (given : Given) (level : Level) : List Char → Except Refusal Given
  | [] => .ok given
  | letter :: rest =>
    match level.lettered? letter with
    | none => .error .unknownArgument
    | some (.flag flag) => (given.takeFlag flag).bind (takeLetters · level rest)
    | some (.setting setting) =>
      given.takeSetting setting <| match rest with
        | [] => none
        | '=' :: value => some (String.ofList value)
        | value => some (String.ofList value)

/-- Takes an operand. -/
def takeOperand (given : Given) (level : Level) (text : String) : Except Refusal Given :=
  if level.takesOperand ∧ ¬ given.hasOperand then
    given.settle.map fun given => { given with pending := some (.operand, some text) }
  else
    .error level.misplaced

/-- Takes an argument that looks like no option. -/
def takePlain (given : Given) (level : Level) (text : String) : Except Refusal Given :=
  match given.pending with
  | some (slot, none) => .ok { given with pending := some (slot, some text) }
  | _ => given.takeOperand level text

/-- Takes one argument. -/
def take (given : Given) (level : Level) (argument : String) : Except Refusal Given :=
  match argument.toList with
  | '-' :: '-' :: rest =>
    let name := String.ofList (rest.takeWhile (· ≠ '='))
    match rest.dropWhile (· ≠ '=') with
    | [] => given.takeLong level name none
    | _ :: value => given.takeLong level name (some (String.ofList value))
  | '-' :: letter :: rest => given.takeLetters level (letter :: rest)
  | _ => given.takePlain level argument

/-- Takes an argument behind `--`, where there are no options. A verb that stands there is told
apart from what nobody knows. -/
def takeLiteral (given : Given) (level : Level) (argument : String) : Except Refusal Given :=
  if level.takesVerb ∧ (Verb.ofName? argument).isSome then .error .unknownArgument
  else given.takeOperand level argument

end Given

/-- What is given on a level, and the verb that ends the level with the arguments behind it. -/
def readLevel (level : Level) (given : Given) :
    List String → Except Refusal (Given × Option (Verb × List String))
  | [] => given.settle.map (·, none)
  | "--" :: rest => do
    let given ← rest.foldlM (fun (given : Given) => given.takeLiteral level) given
    return (← given.settle, none)
  | argument :: rest =>
    match if level.takesVerb then Verb.ofName? argument else none with
    | some verb => .ok (given, some (verb, rest))
    | none => do readLevel level (← given.take level argument) rest

/-- The job that a verb and what is given behind it make. -/
def jobOf (verb : Verb) (given : Given) : Except Refusal Job :=
  match verb, given.operand with
  | .check, some script => .ok (.check script given.config)
  | .initConfig, some path => .ok (.initConfig path)
  | .check, none | .initConfig, none => .error .noOperand
  | .run, _ => .ok (.run given.script given.config given.alliance given.realtime)
  | .commands, _ => .ok .commands
  | .help, _ => .error .helpAsked

/-- Asks for help on nothing, or on one verb. -/
def readHelp : List String → Refusal
  | [] => .helpAsked
  | [name] => if (Verb.ofName? name).isSome then .helpAsked else .unknownVerb
  | _ => .unknownVerb

/-- The request that arguments make. -/
def Request.ofArguments (arguments : List String) : Except Refusal Request := do
  let (before, verb) ← readLevel .top {} arguments
  match verb with
  | none => throw (if before.verbose then .noVerb else .nothingGiven)
  | some (.help, rest) => throw (readHelp rest)
  | some (verb, rest) =>
    let (given, _) ← readLevel (.after verb) {} rest
    return { verbose := before.verbose || given.verbose, job := ← jobOf verb given }

end RobotRoutine.CommandLine
