/-!
# Platforms and faults

The two families of hosts, and why a command stops. Each fault is a cause; `Fault.message` words it
and `Fault.exitCode` gives the status the program ends with. A step that failed passes its own
status on, and a status is never zero.
-/

namespace BuildWarden

/-- A family of hosts. It decides which compilers exist, which build tool compiles, and how a
verification line is written. -/
inductive Platform where
  | unix
  | windows
  deriving DecidableEq, Repr

/-- The name shown in messages and documents. -/
def Platform.name : Platform → String
  | .unix => "unix"
  | .windows => "windows"

/-- What the operating system refuses. -/
inductive OsFault where
  | missing
  | badProgram
  | denied
  | exists
  | notDirectory
  | isDirectory
  | invalid
  | linkLoop
  | notEmpty
  | nameTooLong
  deriving DecidableEq, Repr

/-- The number of the refusal. -/
def OsFault.number : OsFault → Nat
  | .missing => 2
  | .badProgram => 8
  | .denied => 13
  | .exists => 17
  | .notDirectory => 20
  | .isDirectory => 21
  | .invalid => 22
  | .nameTooLong => 36
  | .notEmpty => 39
  | .linkLoop => 40

/-- The words of the refusal. -/
def OsFault.words : OsFault → String
  | .missing => "No such file or directory"
  | .badProgram => "Exec format error"
  | .denied => "Permission denied"
  | .exists => "File exists"
  | .notDirectory => "Not a directory"
  | .isDirectory => "Is a directory"
  | .invalid => "Invalid argument"
  | .nameTooLong => "File name too long"
  | .notEmpty => "Directory not empty"
  | .linkLoop => "Too many levels of symbolic links"

/-- The refusal in a message. -/
def OsFault.message (fault : OsFault) : String :=
  fault.words ++ " (os error " ++ toString fault.number ++ ")"

/-- Why a command stops. -/
inductive Fault where
  /-- An option has a value outside its closed set -/
  | invalidOption (option value expected : String)
  /-- The build tool of the platform has no such step -/
  | unsupportedAction (action target : String) (platform : Platform)
  | unsupportedCompiler (compiler : String) (platform : Platform)
  | toolNotFound (tool : String)
  | invalidTestScope (text : String)
  /-- A file pattern that cannot be read, and why -/
  | invalidPattern (pattern reason : String)
  /-- The dependency graph at the path cannot be read -/
  | invalidGraph (path : String)
  /-- A checked step ended with the status -/
  | stepFailed (status : Int)
  | os (fault : OsFault)
  deriving DecidableEq, Repr

namespace Fault

/-- The wording of a fault. -/
def message : Fault → String
  | invalidOption option value expected =>
    "Invalid value '" ++ value ++ "' for option '" ++ option ++ "' (expected one of: " ++ expected
      ++ ")"
  | unsupportedAction action target platform =>
    "Action '" ++ action ++ "' not treated for target '" ++ target ++ "' on " ++ platform.name
  | unsupportedCompiler compiler platform =>
    "Compiler '" ++ compiler ++ "' is not available on " ++ platform.name
  | toolNotFound tool => tool ++ " not found"
  | invalidTestScope text =>
    "Only [-t all] or [-t quick[:subset]] for testing pyAgrum (got '" ++ text ++ "')"
  | invalidPattern pattern reason =>
    "Invalid file pattern: error parsing glob '" ++ pattern ++ "': " ++ reason
  | invalidGraph path => "Invalid dependency graph " ++ path
  | stepFailed status => "Received error " ++ toString status
  | os fault => fault.message

/-- The status the program ends with. -/
def exitCode : Fault → Int
  | stepFailed status => if status = 0 then 1 else status
  | _ => 1

end Fault
end BuildWarden
