import BuildWarden.Build.Record
import BuildWarden.Command.Grammar
/-!
# Build arguments

What a command line may say about a build. An argument that is given replaces the configured value;
what is not given stays as configured.
-/

namespace BuildWarden.Command

/-- The arguments of a build, each of which may be left out. -/
structure BuildArguments where
  target : Option String := none
  mode : Option String := none
  modules : Option String := none
  jobs : Option String := none
  tests : Option String := none
  compiler : Option String := none
  compilerDir : Option String := none
  destination : Option String := none
  threads : Option String := none
  pythonLibrary : Option String := none
  pythonInclude : Option String := none
  withSql : Option Bool := none
  staticLib : Option Bool := none
  coverage : Option Bool := none
  profiling : Option Bool := none
  fixedSeed : Option Bool := none
  deriving DecidableEq, Repr

namespace BuildArguments

/-- The options of a build; the target is a plain word. -/
def rules : List OptionRule :=
  [("mode", none), ("modules", some 'm'), ("jobs", some 'j'), ("tests", some 't'),
    ("compiler", none), ("compiler-dir", none), ("destination", some 'd'), ("threads", none),
    ("python3lib", none), ("python3include", none)].map
      (fun (name, letter) => ⟨name, letter, .value none⟩)
  ++ ["with-sql", "static-lib", "coverage", "profiling", "fixed-seed"].map
      fun name => ⟨name, none, .switch⟩

/-- The arguments that were read, with the plain word for the target. -/
def ofReading (reading : Reading) (target : Option String) : BuildArguments :=
  let text (name : String) := reading.options.lookup name
  let switch (name : String) := (text name).map (· == "true")
  { target
    mode := text "mode"
    modules := text "modules"
    jobs := text "jobs"
    tests := text "tests"
    compiler := text "compiler"
    compilerDir := text "compiler-dir"
    destination := text "destination"
    threads := text "threads"
    pythonLibrary := text "python3lib"
    pythonInclude := text "python3include"
    withSql := switch "with-sql"
    staticLib := switch "static-lib"
    coverage := switch "coverage"
    profiling := switch "profiling"
    fixedSeed := switch "fixed-seed" }

/-- The options with the given arguments in place of the configured values. -/
def apply (arguments : BuildArguments) (options : BuildOptions) : BuildOptions :=
  { options with
    target := arguments.target.getD options.target
    mode := arguments.mode.getD options.mode
    modules := arguments.modules.getD options.modules
    jobs := arguments.jobs.getD options.jobs
    tests := arguments.tests.getD options.tests
    threads := arguments.threads.getD options.threads
    destination := arguments.destination.getD options.destination
    compiler := arguments.compiler.or options.compiler
    compilerDir := arguments.compilerDir.or options.compilerDir
    pythonLibrary := arguments.pythonLibrary.or options.pythonLibrary
    pythonInclude := arguments.pythonInclude.or options.pythonInclude
    withSql := arguments.withSql.getD options.withSql
    staticLib := arguments.staticLib.getD options.staticLib
    coverage := arguments.coverage.getD options.coverage
    profiling := arguments.profiling.getD options.profiling
    fixedSeed := arguments.fixedSeed.getD options.fixedSeed }

end BuildArguments

/-- The options of one invocation: the action of the command, its arguments in place of configured
values, and the switches of the session added to the configured ones. -/
def resolvedOptions (action : Action) (arguments : BuildArguments) (verbose dryRun : Bool)
    (options : BuildOptions) : BuildOptions :=
  let merged := arguments.apply { options with action := action.name }
  { merged with verbose := merged.verbose || verbose, dryRun := merged.dryRun || dryRun }

/-- The validated record of one invocation. -/
def resolve (action : Action) (arguments : BuildArguments) (verbose dryRun : Bool)
    (options : BuildOptions) (platform : Platform) : Except Fault BuildRecord :=
  BuildRecord.ofOptions (resolvedOptions action arguments verbose dryRun options) platform

end BuildWarden.Command
