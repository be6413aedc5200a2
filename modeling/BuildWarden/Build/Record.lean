import BuildWarden.Build.Compiler
import BuildWarden.Build.Jobs
import BuildWarden.Build.ModuleSet
/-!
# Build records

`BuildOptions` are the raw texts and switches a configuration and a command line give.
`BuildRecord.ofOptions` validates them into the record every line is built from; the first fault in
a fixed order is the one reported.
-/

namespace BuildWarden

/-- Which tests of the binding to run. -/
inductive TestScope where
  /-- The quick tests, or only a named part of them -/
  | quick (part : Option String)
  /-- Everything, notebooks included -/
  | all
  deriving DecidableEq, Repr

namespace TestScope

/-- The scope as it is written. -/
def shown : TestScope → String
  | quick none => "quick"
  | quick (some part) => "quick:" ++ part
  | all => "all"

/-- Reads a scope that has no blanks around it. -/
def parseTrimmed? (text : String) : Option TestScope :=
  if Text.sameIgnoringCase text "all" then some all
  else
    match Text.cutAt? ':' text.toList with
    | none => if Text.sameIgnoringCase text "quick" then some (quick none) else none
    | some (head, part) =>
      if Text.sameIgnoringCase (String.ofList head) "quick" && !part.isEmpty then
        some (quick (some (String.ofList part)))
      else none

/-- Reads a scope; blanks around it do not matter. -/
def parse (text : String) : Except Fault TestScope :=
  match parseTrimmed? (Text.trim text) with
  | some scope => .ok scope
  | none => .error (.invalidTestScope (Text.trim text))

end TestScope

/-- Raw options of a build. -/
structure BuildOptions where
  action : String := "lib"
  mode : String := "release"
  target : String := "aGrUM"
  modules : String := "ALL"
  jobs : String := "halfexcept1"
  tests : String := "quick"
  threads : String := "omp"
  destination : String := "/usr/local"
  compiler : Option String := none
  compilerDir : Option String := none
  pythonLibrary : Option String := none
  pythonInclude : Option String := none
  seed : String := "10"
  withSql : Bool := false
  staticLib : Bool := false
  coverage : Bool := false
  profiling : Bool := false
  verbose : Bool := false
  fixedSeed : Bool := false
  dryRun : Bool := false
  deriving DecidableEq, Repr

/-- A validated build. -/
structure BuildRecord where
  action : Action
  mode : Mode
  target : Target
  modules : ModuleSet
  compiler : Compiler
  compilerDir : Option String
  threads : Threads
  /-- The request; it becomes a number when the cores are known -/
  jobs : String
  tests : TestScope
  destination : String
  pythonLibrary : Option String
  pythonInclude : Option String
  /-- The seed, where a fixed one is asked for -/
  seed : Option String
  withSql : Bool
  staticLib : Bool
  coverage : Bool
  profiling : Bool
  verbose : Bool
  dryRun : Bool
  deriving DecidableEq, Repr

namespace BuildOptions

/-- The compiler family the options ask for, or the usual one of the platform. -/
def compilerFor (options : BuildOptions) (platform : Platform) : Except Fault Compiler := do
  let compiler ←
    match options.compiler.bind Text.nonBlank? with
    | some name => Compiler.choices.parse name
    | none => .ok (.defaultFor platform)
  if compiler.permittedOn platform then .ok compiler else .error (compiler.refusal platform)

/-- A seed is a number below `2 ^ 64`, behind an optional plus sign. -/
def isSeed (text : String) : Bool :=
  let digits := match text.toList with
    | '+' :: digits => digits
    | digits => digits
  match JobRequest.digitsValue? digits with
  | some value => value < UInt64.size
  | none => false

/-- The fixed seed, where one is asked for. -/
def seedText (options : BuildOptions) : Except Fault (Option String) :=
  if options.fixedSeed then
    let seed := Text.trim options.seed
    if isSeed seed then .ok (some seed)
    else .error (.invalidOption "fixed_seed_value" seed "a non-negative integer")
  else .ok none

end BuildOptions

namespace BuildRecord

/-- Validates options for a platform. -/
def ofOptions (options : BuildOptions) (platform : Platform) : Except Fault BuildRecord := do
  let compiler ← options.compilerFor platform
  let seed ← options.seedText
  let action ← Action.choices.parse options.action
  let mode ← Mode.choices.parse options.mode
  let target ← Target.choices.parse options.target
  let threads ← Threads.choices.parse options.threads
  let tests ← TestScope.parse options.tests
  return {
    action, mode, target, compiler, threads, tests, seed
    modules := .parse options.modules
    compilerDir := options.compilerDir.bind Text.nonBlank?
    jobs := Text.trim options.jobs
    destination := options.destination
    pythonLibrary := options.pythonLibrary.bind Text.nonBlank?
    pythonInclude := options.pythonInclude.bind Text.nonBlank?
    withSql := options.withSql
    staticLib := options.staticLib
    coverage := options.coverage
    profiling := options.profiling
    verbose := options.verbose
    dryRun := options.dryRun }

/-- The record as raw options. -/
def toOptions (record : BuildRecord) : BuildOptions where
  action := record.action.name
  mode := record.mode.name
  target := record.target.name
  modules := record.modules.shown
  jobs := record.jobs
  tests := record.tests.shown
  threads := record.threads.name
  destination := record.destination
  compiler := some record.compiler.name
  compilerDir := record.compilerDir
  pythonLibrary := record.pythonLibrary
  pythonInclude := record.pythonInclude
  seed := record.seed.getD "10"
  withSql := record.withSql
  staticLib := record.staticLib
  coverage := record.coverage
  profiling := record.profiling
  verbose := record.verbose
  fixedSeed := record.seed.isSome
  dryRun := record.dryRun

end BuildRecord
end BuildWarden
