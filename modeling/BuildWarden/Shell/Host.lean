import BuildWarden.Build.Pipeline
import BuildWarden.Shell.Run
/-!
# Hosts

What runs programs: lines are handed to the shell of the host's family, and tools are started by
their names. A program starts in a directory that is there, or it does not start at all, and then
nothing has happened.
-/

namespace BuildWarden

/-- A host: its family, and the variables that programs are given. -/
structure Host where
  platform : Platform := .unix
  environment : List (String × String) := [("PATH", "/usr/local/bin:/usr/bin:/bin")]

/-- How a program ended, and what it wrote in order, the usual output apart from that for errors. A
program that a signal ended has the status one. -/
structure Ending where
  status : Nat
  written : List (Bool × Bytes)

namespace Ending

/-- What was written to the usual output. -/
def output (ending : Ending) : Bytes :=
  (ending.written.filter (!·.1)).flatMap (·.2)

/-- What was written about errors. -/
def errors (ending : Ending) : Bytes :=
  (ending.written.filter (·.1)).flatMap (·.2)

/-- The console with all that was written. -/
def passAll (ending : Ending) (world : World) : World :=
  ending.written.foldl (fun world (_, bytes) => world.pass bytes) world

end Ending

namespace Host

/-- The directory of the search path. -/
def searchPath (host : Host) : String :=
  (host.environment.lookup "PATH").getD "/usr/bin:/bin"

/-- The disk as it is seen from a directory. -/
def enter (disk : Disk) (directory : String) : Except OsFault Disk :=
  match disk.open? directory with
  | .ok (location, .dir _) => .ok { disk with here := location }
  | .ok _ => .error .notDirectory
  | .error fault => .error fault

/-- Starts a program in a directory and waits for its end. What it writes is kept. -/
def start (host : Host) (directory program : String) (arguments : List String) (world : World) :
    Except OsFault Ending × World :=
  match enter world.disk directory with
  | .error fault => (.error fault, world)
  | .ok disk =>
    let state : Shell.State :=
      { disk, bindings := host.environment, exported := host.environment.map (·.1) }
    match Shell.programOf state program with
    | .error fault => (.error fault, world)
    | .ok path =>
      match Shell.execute Shell.mostSteps path arguments state with
      | .error fault => (.error fault, world)
      | .ok (flow, state) =>
        let status := if flow = .done then state.status else 1
        (.ok ⟨status, state.console⟩,
          { world with disk := { state.disk with here := world.disk.here } })

/-- Starts the shell with a line. -/
def startLine (host : Host) (directory line : String) (world : World) :
    Except OsFault Ending × World :=
  match host.platform with
  | .unix => host.start directory "sh" ["-c", line] world
  | .windows => host.start directory "cmd" ["/C", line] world

/-- Runs lines in the shell. They write to the console themselves. -/
def executor (host : Host) : Executor := fun line directory world =>
  match host.startLine directory line world with
  | (.error fault, world) => (.error fault, world)
  | (.ok ending, world) => (.ok ending.status, ending.passAll world)

end Host
end BuildWarden
