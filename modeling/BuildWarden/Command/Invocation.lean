import BuildWarden.Command.BuildArguments
/-!
# Invocations

The command line of the program: global options, then a command with options of its own. Global
options may also stand behind the command; given there, a value or count replaces what stood in
front.
-/

namespace BuildWarden.Command

/-- How a report is written. -/
inductive ReportFormat where
  | text
  | json
  deriving DecidableEq, Repr

/-- What the program is asked to do. -/
inductive Request where
  | build (action : Action) (arguments : BuildArguments)
  /-- Shows the lines of an action -/
  | show (action : String) (arguments : BuildArguments) (format : ReportFormat)
  /-- Checks the sources, perhaps correcting them -/
  | guideline (correction : Bool) (format : ReportFormat)
  /-- Removes the build directory -/
  | clean
  deriving DecidableEq, Repr

/-- A command line that was understood. -/
structure Invocation where
  /-- The directory to start in -/
  directory : Option String := none
  /-- How many times more detail was asked for -/
  verbosity : Nat := 0
  quiet : Bool := false
  dryRun : Bool := false
  /-- A configuration file of the user's own -/
  configFile : Option String := none
  command : Option Request := none
  deriving DecidableEq, Repr

namespace Invocation

/-- The name of the program. -/
def programName : String := "act"

/-- The version of the program. -/
def version : String := "0.3.0"

/-- More detail than this is not counted. -/
def mostVerbose : Nat := 255

/-- Options that may stand in front of the command and behind it. -/
def globalRules : List OptionRule :=
  [⟨"directory", some 'C', .value none⟩, ⟨"verbose", some 'v', .repeats⟩,
    ⟨"quiet", some 'q', .nothing⟩, ⟨"dry-run", none, .nothing⟩, ⟨"config", none, .value none⟩,
    ⟨"help", some 'h', .page .help⟩]

/-- The names of the commands that build. -/
def actions : List Action :=
  [.install, .uninstall, .lib, .test, .doc]

/-- The names of all commands; `help` takes the name of another one. -/
def commandNames : List String :=
  actions.map (·.name) ++ ["show", "guideline", "clean"]

/-- What stands in front of the command. -/
def outer : Grammar where
  options := globalRules ++ [⟨"version", some 'V', .page .version⟩]
  words := 0
  commands := commandNames ++ ["help"]

/-- What stands behind a command: the options it has besides the global ones, and its words. -/
def inner (rules : List OptionRule) (words : Nat) : Grammar where
  options := rules ++ globalRules
  words := words
  commands := []

/-- The choice between the formats of a report. -/
def formatRule : OptionRule :=
  ⟨"format", none, .value (some ["text", "json"])⟩

/-- The format that was read. -/
def formatOf (reading : Reading) : ReportFormat :=
  if reading.options.lookup "format" = some "json" then .json else .text

/-- Asks for help on a command. -/
def helpOn : List String → ArgumentFault
  | [] => .help
  | [name] => if outer.commands.contains name then .help else .unknownCommand
  | _ => .unknownCommand

/-- Reads a command and the words behind it. -/
def readCommand (name : String) (words : List String) :
    Except ArgumentFault (Request × Reading) := do
  match actions.find? (·.name == name) with
  | some action =>
    let reading ← (inner BuildArguments.rules 1).read words
    return (.build action (.ofReading reading reading.words.head?), reading)
  | none =>
    match name with
    | "show" =>
      let reading ← (inner (BuildArguments.rules ++ [formatRule]) 2).read words
      match reading.words with
      | [] => .error .missingArgument
      | action :: targets =>
        return (.show action (.ofReading reading targets.head?) (formatOf reading), reading)
    | "guideline" =>
      let reading ← (inner [⟨"correction", none, .nothing⟩, formatRule] 0).read words
      let correction := (reading.options.lookup "correction").isSome
      return (.guideline correction (formatOf reading), reading)
    | "clean" =>
      let reading ← (inner [] 0).read words
      return (.clean, reading)
    | _ => .error (helpOn words)

/-- How many times an option was given. -/
def count (reading : Reading) (name : String) : Nat :=
  reading.options.countP (·.1 == name)

/-- The invocation of a command, from what was read in front of it and behind it. -/
def ofReadings (front behind : Reading) (command : Option Request) : Invocation :=
  let text (name : String) := (behind.options.lookup name).or (front.options.lookup name)
  let verbosity :=
    if count behind "verbose" = 0 then count front "verbose" else count behind "verbose"
  { directory := text "directory"
    verbosity := min verbosity mostVerbose
    quiet := (text "quiet").isSome
    dryRun := (text "dry-run").isSome
    configFile := text "config"
    command }

/-- Reads the words of a command line. What stands behind the command is settled before a pending
option in front of it. -/
def parse (words : List String) : Except ArgumentFault Invocation := do
  let (front, rest) ← outer.scan {} words
  match rest with
  | none => return ofReadings (← front.settle) {} none
  | some (name, behindWords) =>
    let (command, behind) ← readCommand name behindWords
    return ofReadings (← front.settle) behind (some command)

end Invocation
end BuildWarden.Command
