import BuildWarden.Command.Session
/-!
# The program

A run of the program from its arguments to its status. What goes wrong is told in one last message,
and a step that failed gives the program its status.
-/

namespace BuildWarden.Command

/-- What a run of the program comes to. -/
inductive Result where
  /-- The arguments are refused, or ask for a page -/
  | refused (fault : ArgumentFault)
  /-- There is no command, so the help page is shown -/
  | helped
  | ended (status : Int)
  deriving DecidableEq, Repr

/-- Tells why the program stops. -/
def stop (settings : Console.Settings) (reason : String) (status : Int) (world : World) :
    Result × World :=
  (.ended status, world.say settings (.fatal reason))

/-- Carries out a command as an invocation asks for it. -/
def runCommand (host : Host) (cores : Nat) (invocation : Invocation) (command : Request)
    (world : World) : Result × World :=
  let settings : Console.Settings :=
    { verbose := invocation.verbosity > 0, quiet := invocation.quiet }
  match Configuration.load world.disk host.environment "." invocation.configFile with
  | .error misfit => stop settings misfit.message 1 world
  | .ok configuration =>
    let session : Session :=
      { host, configuration, settings
        context := configuration.context world.disk host.searchPath cores
        verbose := invocation.verbosity > 0
        dryRun := invocation.dryRun }
    match session.perform command world with
    | (.ok (), world) => (.ended 0, world)
    | (.error fault, world) => stop settings fault.message fault.exitCode world

/-- Runs the program. -/
def runProgram (host : Host) (cores : Nat) (words : List String) (world : World) :
    Result × World :=
  match Invocation.parse words with
  | .error fault => (.refused fault, world)
  | .ok invocation =>
    let settings : Console.Settings :=
      { verbose := invocation.verbosity > 0, quiet := invocation.quiet }
    let entered : Except OsFault Disk := match invocation.directory with
      | some directory => Host.enter world.disk directory
      | none => .ok world.disk
    match entered, invocation.directory with
    | .error fault, directory =>
      let reason := "Cannot enter directory " ++ directory.getD "" ++ ": " ++ fault.message
      stop settings reason 1 world
    | .ok disk, _ =>
      match invocation.command with
      | none => (.helped, world)
      | some command => runCommand host cores invocation command { world with disk }

end BuildWarden.Command
