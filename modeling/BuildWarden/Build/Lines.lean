import BuildWarden.Build.Context
import BuildWarden.Build.Record
/-!
# Command lines and plans of a build

The three lines of a build: the configure line generates the build tree, the compile line builds in
it, and the post line verifies what was built. A line is a function of the record and the context;
its fragments stand in a fixed order, so the same record always gives the same text. A plan has all
the lines of one build and the directory they run in. It is made before anything runs, so that a
configuration that cannot be built leaves nothing behind.
-/

namespace BuildWarden

namespace BuildRecord

/-- A cache entry for the configuration step. -/
def definition (key value : String) : String :=
  "-D" ++ key ++ "=" ++ value

/-- How a switch is written. -/
def onOff (flag : Bool) : String :=
  if flag then "ON" else "OFF"

/-- The build type, as the configuration step spells it. -/
def buildType : Mode → String
  | .release => "RELEASE"
  | .debug => "DEBUG"

/-- The entries that name the Python installation; only the binding has them. -/
def pythonEntries (record : BuildRecord) : List String :=
  match record.target with
  | .library => []
  | .binding =>
    (record.pythonLibrary.map (definition "PYTHON_LIBRARY")).toList
      ++ (record.pythonInclude.map (definition "PYTHON_INCLUDE_DIR")).toList

/-- A directory without the slashes and backslashes at its end. -/
def dropSlashes (dir : String) : String :=
  String.ofList (dir.toList.reverse.dropWhile fun c => c = '/' || c = '\\').reverse

/-- A compiler in the compiler directory, where one is set. -/
def compilerPath (record : BuildRecord) (executable : String) : String :=
  match record.compilerDir with
  | some dir => dropSlashes dir ++ "/" ++ executable
  | none => executable

/-- Selects the compiler. -/
def toolchain (record : BuildRecord) (platform : Platform) : Except Fault (List String) :=
  if record.compiler.permittedOn platform then
    match record.compiler.selection with
    | .generator arguments => .ok [arguments]
    | .executables c cxx =>
      .ok [definition "CMAKE_C_COMPILER" (record.compilerPath c),
        definition "CMAKE_CXX_COMPILER" (record.compilerPath cxx)]
  else .error (record.compiler.refusal platform)

/-- The fragments in front of the selection of the compiler. -/
def configureHead (record : BuildRecord) (tools : Tools) : List String :=
  [tools.cmake, "../..",
    definition "CMAKE_EXPORT_COMPILE_COMMANDS" "ON",
    definition "CMAKE_BUILD_TYPE" (buildType record.mode),
    definition "USE_NANODBC" (onOff record.withSql),
    definition "CMAKE_INSTALL_PREFIX" ("\"" ++ record.destination ++ "\""),
    definition "CMAKE_VERBOSE_MAKEFILE" (onOff record.verbose),
    definition "BUILD_SHARED_LIBS" (onOff !record.staticLib),
    definition "GUM_COVERAGE" (onOff record.coverage),
    definition "BUILD_ALL" "OFF"]
  ++ record.modules.names.map (fun name => definition ("BUILD_" ++ name) "ON")
  ++ [definition "GUM_RANDOMSEED" (record.seed.getD "0"),
    definition "BUILD_PYTHON" (onOff (record.target = .binding))]
  ++ record.pythonEntries

/-- The fragments behind the selection of the compiler. -/
def configureTail (record : BuildRecord) : List String :=
  definition "CMAKE_GUM_THREADS" record.threads.name
    :: if record.profiling then [definition "GUM_PROFILING" "ON"] else []

/-- The configure line. It is run two directories below the project, its source argument. -/
def configureLine (record : BuildRecord) (context : Context) : Except Fault String := do
  let toolchain ← record.toolchain context.platform
  return Text.joined " " (record.configureHead context.tools ++ toolchain ++ record.configureTail)

/-- Where the binding's own build tree lies. -/
def bindingDir : String := "wrappers/pyAgrum"

/-- The jobs of the build, as text. -/
def jobCount (record : BuildRecord) (context : Context) : String :=
  toString (JobRequest.resolve record.jobs context.cores)

/-- What the build tool of Windows is to build. -/
def project? : Action → Target → Option String
  | .test, .library => some "agrum.sln /t:gumTest"
  | .test, .binding => some "agrum.sln /t:_pyAgrum"
  | .install, _ | .lib, _ => some "INSTALL.vcxproj"
  | .uninstall, _ | .doc, _ => none

/-- The compile line on Windows. -/
def msbuildLine (record : BuildRecord) (context : Context) : Except Fault String :=
  match context.tools.msbuild, project? record.action record.target with
  | none, _ => .error (.toolNotFound "MsBuild")
  | some _, none =>
    .error (.unsupportedAction record.action.name record.target.name context.platform)
  | some tool, some project =>
    let tool := if Text.contains " " tool then "\"" ++ tool ++ "\"" else tool
    .ok (Text.joined " " [tool, project, "/p:Configuration=\"Release\"", "/p:BuildInParallel=true",
      "/maxcpucount:" ++ record.jobCount context])

/-- What `make` is to make; nothing is named for the default. -/
def makeGoal : Action → Target → List String
  | .test, .library => ["gumTest"]
  | .test, .binding => []
  | .install, _ => ["install"]
  | .uninstall, _ => ["uninstall"]
  | .lib, _ => []
  | .doc, _ => ["doc"]

/-- The compile line on Unix. -/
def makeLine (record : BuildRecord) (context : Context) : String :=
  Text.joined " " ([context.tools.make] ++ makeGoal record.action record.target
    ++ ["-j", record.jobCount context]
    ++ if record.target = .binding then ["-C", bindingDir] else [])

/-- The compile line. -/
def compileLine (record : BuildRecord) (context : Context) : Except Fault String :=
  match context.platform with
  | .windows => record.msbuildLine context
  | .unix => .ok (record.makeLine context)

/-- A line that verifies a build. -/
structure PostLine where
  /-- Empty when there is nothing to verify -/
  line : String
  /-- Whether a status other than zero stops the build -/
  checked : Bool
  deriving DecidableEq, Repr

/-- Runs the tests of the binding. -/
def bindingTests (record : BuildRecord) (context : Context) : String :=
  let run (runner : String) :=
    context.tools.python ++ " " ++ runner ++ record.tests.shown ++ " " ++ record.mode.name
  match context.platform with
  | .unix => run "../../wrappers/pyAgrum/testunits/gumTest.py "
  | .windows =>
    "copy /Y \"wrappers\\pyAgrum\\Release\\_pyAgrum.pyd\" \"wrappers\\pyAgrum\\.\" & "
      ++ run "..\\..\\wrappers\\pyAgrum\\testunits\\gumTest.py "

/-- The test program of the library. Visual Studio writes it below `Release` in both modes. -/
def libraryTests (compiler : Compiler) : Platform → String
  | .unix => "src/gumTest"
  | .windows =>
    if compiler = .mingw then "src\\gumTest.exe" else "src\\Release\\gumTest.exe"

/-- The post line. Only tests have one. -/
def postLine (record : BuildRecord) (context : Context) : PostLine :=
  match record.action, record.target with
  | .test, .library => ⟨libraryTests record.compiler context.platform, true⟩
  | .test, .binding => ⟨record.bindingTests context, true⟩
  | _, _ => ⟨"", false⟩

end BuildRecord

/-! ### Plans -/

/-- The lines of one build. -/
structure BuildPlan where
  directory : String
  configure : String
  compile : String
  post : BuildRecord.PostLine
  deriving DecidableEq, Repr

namespace BuildRecord

/-- The build directory; each mode has its own. -/
def directory (record : BuildRecord) (context : Context) : String :=
  Path.join context.layout.buildDir record.mode.name

/-- Plans a build. -/
def plan (record : BuildRecord) (context : Context) : Except Fault BuildPlan := do
  let configure ← record.configureLine context
  let compile ← record.compileLine context
  return ⟨record.directory context, configure, compile, record.postLine context⟩

end BuildRecord

/-- The lines of a plan in the order in which they run, and whether a status stops the build. An
empty post line does not run. -/
def BuildPlan.steps (plan : BuildPlan) : List (String × Bool) :=
  [(plan.configure, true), (plan.compile, true)]
    ++ if plan.post.line.isEmpty then [] else [(plan.post.line, plan.post.checked)]

end BuildWarden
