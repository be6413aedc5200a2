import BuildWarden.Shell.Script
import BuildWarden.Text.Utf8
import BuildWarden.Tree.Disk
/-!
# State of a running script

What a script reads and changes: the disk and the working directory, its variables and parameters,
and where its descriptors lead. What reaches the console is kept in the order of writing.
-/

namespace BuildWarden.Shell

/-- Where a descriptor leads. -/
inductive Channel where
  /-- The console, or the console for errors -/
  | console (error : Bool)
  /-- Bytes that are kept until they are read -/
  | stream (index : Nat)
  /-- The end of a file -/
  | file (location : Location)
  | null
  deriving DecidableEq, Repr

/-- The state of a running script. -/
structure State where
  disk : Disk
  console : List (Bool × Bytes) := []
  streams : List Bytes := []
  channels : List (Nat × Channel) := [(0, .null), (1, .console false), (2, .console true)]
  bindings : List (String × String) := []
  /-- The variables that programs are given -/
  exported : List String := []
  parameters : List String := []
  /-- What the script is called -/
  name : String := "sh"
  status : Nat := 0
  /-- Whether a command that fails ends the script -/
  strict : Bool := false
  functions : List (String × Command) := []

namespace State

/-- The value of a variable. -/
def lookup? (state : State) (name : String) : Option String :=
  state.bindings.lookup name

/-- Gives a variable a value. -/
def assign (state : State) (name value : String) : State :=
  { state with bindings := (name, value) :: state.bindings.filter (·.1 != name) }

/-- Takes the value of a variable away. -/
def forget (state : State) (name : String) : State :=
  { state with bindings := state.bindings.filter (·.1 != name) }

/-- Where a descriptor leads. -/
def channel (state : State) (descriptor : Nat) : Channel :=
  (state.channels.lookup descriptor).getD .null

/-- Leads a descriptor somewhere else. -/
def connect (state : State) (descriptor : Nat) (channel : Channel) : State :=
  { state with
    channels := (descriptor, channel) :: state.channels.filter (·.1 != descriptor) }

/-- A new stream that holds some bytes. -/
def newStream (state : State) (bytes : Bytes) : Nat × State :=
  (state.streams.length, { state with streams := state.streams ++ [bytes] })

/-- Writes bytes where a channel leads. -/
def send (state : State) (channel : Channel) (bytes : Bytes) : State :=
  match channel with
  | .console error => { state with console := state.console ++ [(error, bytes)] }
  | .stream index => { state with streams := state.streams.modify index (· ++ bytes) }
  | .file location =>
    { state with
      disk.tree := state.disk.tree.alterAt (fun
        | some (.leaf (.file content executable)) =>
          some (.leaf (.file (content ++ bytes) executable))
        | other => other) location }
  | .null => state

/-- Writes bytes to a descriptor. -/
def write (state : State) (descriptor : Nat) (bytes : Bytes) : State :=
  if bytes.isEmpty then state else state.send (state.channel descriptor) bytes

/-- Writes a text to the usual output. -/
def print (state : State) (text : String) : State :=
  state.write 1 (Text.Utf8.encode text)

/-- Writes a line about an error. -/
def complain (state : State) (text : String) : State :=
  state.write 2 (Text.Utf8.encode (text ++ "\n"))

/-- Writes a line about what the shell itself cannot do on a line of the script. -/
def report (state : State) (line : Nat) (text : String) : State :=
  state.complain (state.name ++ ": " ++ toString line ++ ": " ++ text)

/-- What can be read from a descriptor. -/
def available (state : State) (descriptor : Nat) : Bytes :=
  match state.channel descriptor with
  | .stream index => state.streams.getD index []
  | _ => []

/-- Takes bytes from a descriptor. -/
def consume (state : State) (descriptor count : Nat) : State :=
  match state.channel descriptor with
  | .stream index => { state with streams := state.streams.modify index (·.drop count) }
  | _ => state

/-- Reads all that is left of the usual input. -/
def readInput (state : State) : Bytes × State :=
  let bytes := state.available 0
  (bytes, state.consume 0 bytes.length)

/-- The value of a parameter that has a sign or a number for a name. -/
def special? (state : State) (name : String) : Option String :=
  match name with
  | "?" => some (toString state.status)
  | "#" => some (toString state.parameters.length)
  | "$" => some "4242"
  | "0" => some state.name
  | "PWD" => some ("/" ++ Text.joined "/" state.disk.here)
  | "-" => some (if state.strict then "e" else "")
  | "!" => some ""
  | _ =>
    match name.toNat? with
    | some number => (state.name :: state.parameters)[number]?
    | none => state.lookup? name

end State
end BuildWarden.Shell
