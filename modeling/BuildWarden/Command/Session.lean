import BuildWarden.Command.Invocation
import BuildWarden.Guideline.GraphFile
import BuildWarden.Guideline.Programs
import BuildWarden.Json.Document
import BuildWarden.Settings.Host
/-!
# Sessions

What one run of the program knows, and its commands: building, showing the lines of a build,
checking the sources and removing the build directory. Reports for other programs are documents, and
stand on the console alone.
-/

namespace BuildWarden.Command

/-- What one run of the program knows. -/
structure Session where
  host : Host
  configuration : Configuration
  context : Context
  settings : Console.Settings
  /-- Switches of the run, on top of what is configured -/
  verbose : Bool := false
  dryRun : Bool := false

/-- A record as a document. -/
def recordDocument (record : BuildRecord) : Json.Document :=
  .ofFields [
    ("action", .text record.action.name), ("mode", .text record.mode.name),
    ("target", .text record.target.name),
    ("modules", .list (record.modules.names.map .text)),
    ("compiler", .text record.compiler.name), ("compiler_dir", .ofText? record.compilerDir),
    ("threads", .text record.threads.name), ("jobs", .text record.jobs),
    ("tests", .text record.tests.shown), ("destination", .text record.destination),
    ("python3lib", .ofText? record.pythonLibrary),
    ("python3include", .ofText? record.pythonInclude), ("fixed_seed", .ofText? record.seed),
    ("with_sql", .bool record.withSql), ("static_lib", .bool record.staticLib),
    ("coverage", .bool record.coverage), ("profiling", .bool record.profiling),
    ("verbose", .bool record.verbose), ("dry_run", .bool record.dryRun)]

/-- A plan as a document. -/
def planDocument (plan : BuildPlan) : Json.Document :=
  .ofFields [
    ("directory", .text plan.directory), ("configure", .text plan.configure),
    ("compile", .text plan.compile),
    ("post", .ofFields [("line", .text plan.post.line), ("check_rc", .bool plan.post.checked)])]

/-- The result of a check as a document. -/
def resultDocument (result : Guideline.CheckResult) : Json.Document :=
  .ofFields [
    ("name", .text result.name), ("kind", .text result.kind),
    ("violations", .number result.violations), ("corrected", .number result.corrected),
    ("skipped", .bool result.skipped)]

/-- A report as a document. -/
def reportDocument (correction : Bool) (report : Guideline.Report) : Json.Document :=
  .ofFields [
    ("total", .number report.total), ("correction", .bool correction),
    ("checks", .list (report.map resultDocument))]

namespace Session

/-- The record of an action with arguments. -/
def record (session : Session) (action : Action) (arguments : BuildArguments) :
    Except Fault BuildRecord :=
  resolve action arguments session.verbose session.dryRun session.configuration.build
    session.context.platform

/-- Builds. -/
def build (session : Session) (action : Action) (arguments : BuildArguments) (world : World) :
    Except Fault Unit × World :=
  match session.record action arguments with
  | .error fault => (.error fault, world)
  | .ok record => record.run session.settings session.context session.host.executor world

/-- Writes the lines of a plan. -/
def showPlan (session : Session) (record : BuildRecord) (plan : BuildPlan) (world : World) :
    World :=
  let title := record.subject ++ " in [" ++ record.mode.name ++ "] mode"
  let lines := [("directory: ", plan.directory), ("configure: ", plan.configure),
    ("compile:   ", plan.compile)]
    ++ if plan.post.line.isEmpty then [] else [("post:      ", plan.post.line)]
  lines.foldl (fun world (name, line) => world.say session.settings (.line (name ++ line)))
    (world.say session.settings (.header title))

/-- Shows what an action would do. -/
def showAction (session : Session) (action : String) (arguments : BuildArguments)
    (format : ReportFormat) (world : World) : Except Fault Unit × World :=
  let planned : Except Fault (BuildRecord × BuildPlan) := do
    let record ← session.record (← Action.choices.parse action) arguments
    return (record, ← record.plan session.context)
  match planned with
  | .error fault => (.error fault, world)
  | .ok (record, plan) =>
    match format with
    | .text => (.ok (), session.showPlan record plan world)
    | .json =>
      let document := Json.Document.ofFields
        [("config", recordDocument record), ("plan", planDocument plan)]
      (.ok (), world.say session.settings (.line document.toText))

/-- Checks the sources. What is found is reported and is no fault. -/
def checkSources (session : Session) (correction : Bool) (format : ReportFormat) (world : World) :
    Except Fault Unit × World :=
  let settings : Console.Settings := match format with
    | .json => { verbose := false, quiet := true }
    | .text => session.settings
  match ModuleGraph.load world.disk session.configuration.graphPath with
  | .error fault => (.error fault, world)
  | .ok graph =>
    let inspection := Guideline.Inspection.ofContext session.host session.context settings graph
    let (report, world) := inspection.run correction world
    let total := report.total
    match format with
    | .json => (.ok (), world.say settings (.line (reportDocument correction report).toText))
    | .text =>
      let message := if total = 0 then Console.Message.success "No guideline error"
        else .warning (Guideline.plural total ("[" ++ toString total ++ "] guideline error")
          ++ " found")
      (.ok (), world.say settings message)

/-- Carries out a command. -/
def perform (session : Session) (command : Request) (world : World) : Except Fault Unit × World :=
  match command with
  | .build action arguments => session.build action arguments world
  | .show action arguments format => session.showAction action arguments format world
  | .guideline correction format => session.checkSources correction format world
  | .clean => cleanBuild session.settings session.context session.dryRun world

end Session
end BuildWarden.Command
