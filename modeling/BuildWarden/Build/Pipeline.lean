import BuildWarden.Build.Lines
import BuildWarden.World
/-!
# Running a build

A plan is run line by line in its build directory, and the first line that fails stops it. Nothing
happens before the whole plan is made. A dry run only shows what it would do.
-/

namespace BuildWarden

/-- Runs a command line in a directory and answers with its status, or with why it cannot run. -/
abbrev Executor := (line directory : String) → World → Except OsFault Int × World

/-- Notes that a line is handed to the host. -/
def World.handOver (world : World) (line directory : String) : World :=
  { world with calls := world.calls ++ [⟨line, directory, world.disk.isDir directory⟩] }

namespace BuildRecord

/-- Shows a command where the record asks for that. -/
def traced (record : BuildRecord) (settings : Console.Settings) (command : String)
    (world : World) : World :=
  if record.dryRun || record.verbose then world.say settings (.trace command) else world

/-- Runs one line. If it is checked, its status must be zero. -/
def runLine (record : BuildRecord) (settings : Console.Settings) (executor : Executor)
    (directory line : String) (checked : Bool) (world : World) : Except Fault Unit × World :=
  let world := record.traced settings line world
  if record.dryRun then (.ok (), world)
  else
    match executor line directory (world.handOver line directory) with
    | (.error fault, world) => (.error (.os fault), world)
    | (.ok status, world) =>
      if checked && status != 0 then (.error (.stepFailed status), world) else (.ok (), world)

/-- Runs lines until one fails. -/
def runLines (record : BuildRecord) (settings : Console.Settings) (executor : Executor)
    (directory : String) : List (String × Bool) → World → Except Fault Unit × World
  | [], world => (.ok (), world)
  | (line, checked) :: rest, world =>
    match record.runLine settings executor directory line checked world with
    | (.ok (), world) => record.runLines settings executor directory rest world
    | failed => failed

/-- Makes the build directory. -/
def enter (record : BuildRecord) (settings : Console.Settings) (directory : String)
    (world : World) : Except Fault Unit × World :=
  let world := record.traced settings ("cd " ++ directory) world
  if record.dryRun then (.ok (), world)
  else
    match world.disk.makeDirs directory with
    | (disk, none) => (.ok (), { world with disk })
    | (disk, some fault) => (.error (.os fault), { world with disk })

/-- What a build does, in the words of its announcements. -/
def subject (record : BuildRecord) : String :=
  "[" ++ record.action.name ++ "] on [" ++ record.target.name ++ "]"

/-- Plans a build and runs it. -/
def run (record : BuildRecord) (settings : Console.Settings) (context : Context)
    (executor : Executor) (world : World) : Except Fault Unit × World :=
  match record.plan context with
  | .error fault => (.error fault, world)
  | .ok plan =>
    let title := record.subject ++ " in [" ++ record.mode.name ++ "] mode"
    let world := world.say settings (.notice title)
    match record.enter settings plan.directory world with
    | (.error fault, world) => (.error fault, world)
    | (.ok (), world) =>
      match record.runLines settings executor plan.directory plan.steps world with
      | (.error fault, world) => (.error fault, world)
      | (.ok (), world) => (.ok (), world.say settings (.success (record.subject ++ " done")))

end BuildRecord

/-- Removes the whole build directory. -/
def cleanBuild (settings : Console.Settings) (context : Context) (dryRun : Bool) (world : World) :
    Except Fault Unit × World :=
  let directory := context.layout.buildDir
  if !world.disk.isThere directory then
    (.ok (), world.say settings
      (.notice ("[" ++ directory ++ "] does not exist, nothing to clean")))
  else if dryRun then (.ok (), world.say settings (.trace ("rm -rf " ++ directory)))
  else
    match world.disk.removeTree directory with
    | (disk, some fault) => (.error (.os fault), { world with disk })
    | (disk, none) =>
      let world : World := { world with disk }
      (.ok (), world.say settings (.success ("[" ++ directory ++ "] removed")))

end BuildWarden
