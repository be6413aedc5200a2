import BuildWarden.Text.Search
/-!
# Option grammar

How words of a command line become options and plain words. An option has a long name, perhaps a
one-letter name, and takes nothing, a value, or a truth value that must stand behind `=`. Words are
read from left to right. The value of an option may be the next word unless that looks like an
option, and it is checked only when the next thing is read; an unknown option is reported before
such a pending value is.
-/

namespace BuildWarden.Command

/-- Why the words of a command line are refused, or answered with a page of help. -/
inductive ArgumentFault where
  | unknownArgument
  | unknownCommand
  | invalidValue
  | givenTwice
  | missingArgument
  | unexpectedValue
  | help
  | version
  deriving DecidableEq, Repr

/-- What an option takes. -/
inductive Takes where
  | nothing
  /-- Nothing, and the option may be given again and again -/
  | repeats
  /-- A value; where a list of values is given, one of these -/
  | value (accepted : Option (List String))
  /-- `true` or `false` behind `=`, and `true` when it is left out -/
  | switch
  /-- Nothing: the option asks for a page and ends the reading -/
  | page (fault : ArgumentFault)
  deriving DecidableEq, Repr

/-- An option of a grammar. -/
structure OptionRule where
  name : String
  letter : Option Char
  takes : Takes
  deriving DecidableEq, Repr

/-- What can be written: options, plain words up to a number, and names of commands. -/
structure Grammar where
  options : List OptionRule
  words : Nat
  commands : List String

/-- What has been read: options with their values, and plain words. -/
structure Reading where
  options : List (String × String) := []
  words : List String := []
  /-- An option whose value is not settled, and the value if it has been read -/
  pending : Option (OptionRule × Option String) := none
  /-- After `--` every word is a plain word -/
  plain : Bool := false
  deriving DecidableEq, Repr

namespace Reading

/-- Takes an option and its value. -/
def take (reading : Reading) (rule : OptionRule) (value : String) :
    Except ArgumentFault Reading :=
  let taken := { reading with options := reading.options ++ [(rule.name, value)] }
  let once := if reading.options.any (·.1 == rule.name) then .error .givenTwice else .ok taken
  match rule.takes with
  | .repeats => .ok taken
  | .nothing | .value none => once
  | .value (some accepted) => do
    let taken ← once
    if accepted.contains value then .ok taken else .error .invalidValue
  | .switch => do
    let taken ← once
    if ["true", "false"].contains value then .ok taken else .error .invalidValue
  | .page fault => .error fault

/-- Settles the pending option. -/
def settle (reading : Reading) : Except ArgumentFault Reading :=
  match reading.pending with
  | none => .ok reading
  | some (_, none) => .error .invalidValue
  | some (rule, some value) => { reading with pending := none }.take rule value

/-- Settles the pending option, then takes another one. -/
def takeNext (reading : Reading) (rule : OptionRule) (value : String) :
    Except ArgumentFault Reading := do
  (← reading.settle).take rule value

/-- Settles the pending option, then waits for the value of another one. -/
def await (reading : Reading) (rule : OptionRule) : Except ArgumentFault Reading := do
  return { ← reading.settle with pending := some (rule, none) }

/-- Whether an option waits for its value. -/
def waits (reading : Reading) : Bool :=
  match reading.pending with
  | some (_, none) => true
  | _ => false

/-- Reads an option by its long name, with what stood behind `=`. -/
def long (grammar : Grammar) (reading : Reading) (name : String) (attached : Option String) :
    Except ArgumentFault Reading :=
  match grammar.options.find? (·.name == name) with
  | none => .error .unknownArgument
  | some rule =>
    match rule.takes, attached with
    | .value _, none => reading.await rule
    | .value _, some value | .switch, some value => reading.takeNext rule value
    | _, some _ => .error .unexpectedValue
    | _, none => reading.takeNext rule "true"

/-- Reads options by their letters; the rest of the word behind the letter of an option that takes a
value is the value. -/
def letters (grammar : Grammar) (reading : Reading) : List Char → Except ArgumentFault Reading
  | [] => .ok reading
  | c :: rest =>
    match grammar.options.find? (·.letter == some c) with
    | none => .error .unknownArgument
    | some rule =>
      match rule.takes, rest with
      | .value _, [] => reading.await rule
      | .value _, '=' :: value => reading.takeNext rule (String.ofList value)
      | .value _, value => reading.takeNext rule (String.ofList value)
      | _, _ => do
        let reading ← reading.takeNext rule "true"
        reading.letters grammar rest

/-- Reads a word that is no option. -/
def word (grammar : Grammar) (reading : Reading) (text : String) : Except ArgumentFault Reading :=
  if reading.words.length < grammar.words then do
    let settled ← reading.settle
    return { settled with words := settled.words ++ [text] }
  else if grammar.commands.isEmpty || (reading.plain && grammar.commands.contains text) then
    .error .unknownArgument
  else .error .unknownCommand

/-- Reads one word that names no command. -/
def next (grammar : Grammar) (reading : Reading) (text : String) : Except ArgumentFault Reading :=
  if reading.plain then reading.word grammar text
  else
    match text.toList with
    | ['-', '-'] => .ok { reading with plain := true }
    | '-' :: '-' :: option =>
      match Text.cutAt? '=' option with
      | some (name, value) =>
        reading.long grammar (String.ofList name) (some (String.ofList value))
      | none => reading.long grammar (String.ofList option) none
    | '-' :: c :: rest => reading.letters grammar (c :: rest)
    | _ =>
      match reading.pending with
      | some (rule, none) => .ok { reading with pending := some (rule, some text) }
      | _ => reading.word grammar text

end Reading

/-- Reads words up to the name of a command: what was read, and the command with the words behind
it. The last option may still be pending. -/
def Grammar.scan (grammar : Grammar) (reading : Reading) :
    List String → Except ArgumentFault (Reading × Option (String × List String))
  | [] => .ok (reading, none)
  | text :: rest =>
    if !reading.plain && !reading.waits && grammar.commands.contains text then
      .ok (reading, some (text, rest))
    else do
      grammar.scan (← reading.next grammar text) rest

/-- Reads all words of a grammar without commands. -/
def Grammar.read (grammar : Grammar) (words : List String) : Except ArgumentFault Reading := do
  (← grammar.scan {} words).1.settle

end BuildWarden.Command
