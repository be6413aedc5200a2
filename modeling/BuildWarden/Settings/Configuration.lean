import BuildWarden.Build.Context
import BuildWarden.Build.Record
import BuildWarden.Settings.Environment
import BuildWarden.Settings.Section
import BuildWarden.Toml.Reader
import BuildWarden.Tree.Disk
/-!
# Configurations

A configuration is read from four layers, each laid over the ones before: the settings that come
with the program, the file of the project, a file of the user's own, and the environment.
-/

namespace BuildWarden

open Settings

/-- The commands that stand for the tools of a host. -/
structure ToolCommands where
  cmake : String := "cmake"
  make : String := "make"
  msbuild : String := "msbuild"
  python : String := "python3"
  clangFormat : String := "clang-format"
  /-- Blank where the documentation is not checked -/
  docLinter : String := ""
  deriving DecidableEq, Repr

/-- What the layers of settings say. -/
structure Configuration where
  tools : ToolCommands := {}
  build : BuildOptions := {}
  layout : Layout := {}
  /-- The file that declares the dependencies of the modules -/
  dependencyGraph : String := "act.deps.toml"
  deriving DecidableEq, Repr

namespace Configuration

/-- The tools by name. -/
def toolsSection : Section ToolCommands where
  name := "tools"
  title := "struct ToolsConfig"
  fields := [
    .of "cmake" .text true fun value tools => { tools with cmake := value },
    .of "make" .text true fun value tools => { tools with make := value },
    .of "msbuild" .text true fun value tools => { tools with msbuild := value },
    .of "python" .text true fun value tools => { tools with python := value },
    .of "clang_format" .text true fun value tools => { tools with clangFormat := value },
    .of "doc_linter" .text false fun value tools => { tools with docLinter := value }]

/-- The options of a build by name. -/
def buildSection : Section BuildOptions where
  name := "build"
  title := "struct BuildOptions"
  fields := [
    .of "action" .text false fun value options => { options with action := value },
    .of "mode" .text false fun value options => { options with mode := value },
    .of "target" .text false fun value options => { options with target := value },
    .of "modules" .text false fun value options => { options with modules := value },
    .of "jobs" .text false fun value options => { options with jobs := value },
    .of "tests" .text false fun value options => { options with tests := value },
    .of "threads" .text false fun value options => { options with threads := value },
    .of "destination" .text false fun value options => { options with destination := value },
    .of "compiler" .text false fun value options => { options with compiler := some value },
    .of "compiler_dir" .text false fun value options => { options with compilerDir := some value },
    .of "python3lib" .text false fun value options => { options with pythonLibrary := some value },
    .of "python3include" .text false
      fun value options => { options with pythonInclude := some value },
    .of "fixed_seed_value" .text false fun value options => { options with seed := value },
    .of "with_sql" .boolean false fun value options => { options with withSql := value },
    .of "static_lib" .boolean false fun value options => { options with staticLib := value },
    .of "coverage" .boolean false fun value options => { options with coverage := value },
    .of "profiling" .boolean false fun value options => { options with profiling := value },
    .of "verbose" .boolean false fun value options => { options with verbose := value },
    .of "fixed_seed" .boolean false fun value options => { options with fixedSeed := value },
    .of "dry_run" .boolean false fun value options => { options with dryRun := value }]

/-- The directories by name. -/
def layoutSection : Section Layout where
  name := "layout"
  title := "struct LayoutConfig"
  fields := [
    .of "root" .path true fun value layout => { layout with root := value },
    .of "sources" .text true fun value layout => { layout with sources := value },
    .of "library" .text true fun value layout => { layout with library := value },
    .of "testunits" .text true fun value layout => { layout with testunits := value },
    .of "build" .text true fun value layout => { layout with build := value }]

/-- The settings of the guideline by name. -/
def guidelineSection : Section String where
  name := "guideline"
  title := "struct GuidelineConfig"
  fields := [.of "dependency_graph" .text true fun value _ => value]

/-- A table of texts and switches that come with the program. -/
def builtinTable (texts : List (String × String)) (switches : List String) : Table :=
  let written := texts.foldl (fun table (name, value) =>
    table.set name (.scalar .builtin (.text value))) .empty
  switches.foldl (fun table name => table.set name (.scalar .builtin (.boolean false))) written

/-- The settings that come with the program. -/
def builtin : Table :=
  [("tools", builtinTable [("cmake", "cmake"), ("make", "make"), ("msbuild", "msbuild"),
      ("python", "python3"), ("clang_format", "clang-format"), ("doc_linter", "")] []),
    ("build", builtinTable [("action", "lib"), ("mode", "release"), ("target", "aGrUM"),
        ("modules", "ALL"), ("jobs", "halfexcept1"), ("tests", "quick"), ("threads", "omp"),
        ("destination", "/usr/local"), ("fixed_seed_value", "10")]
      ["with_sql", "static_lib", "coverage", "profiling", "verbose", "fixed_seed", "dry_run"]),
    ("layout", builtinTable [("root", "."), ("sources", "src"), ("library", "src/agrum"),
      ("testunits", "src/testunits"), ("build", "build")] []),
    ("guideline", builtinTable [("dependency_graph", "act.deps.toml")] [])].foldl
      (fun table (name, inside) => table.set name (.table .builtin inside)) .empty

/-- Reads a section where it is given. -/
def readSection {α : Type} (part : Section α) (settings : Table) (target : α) :
    Except Misfit α :=
  match settings.find? part.name with
  | some setting => part.read setting target
  | none => .ok target

/-- The configuration that settings describe. The sections are read in the order of their names. -/
def ofSettings (settings : Table) : Except Misfit Configuration := do
  let build ← readSection buildSection settings {}
  let dependencyGraph ← readSection guidelineSection settings ""
  let layout ← readSection layoutSection settings {}
  let tools ← readSection toolsSection settings {}
  return { tools, build, layout, dependencyGraph }

/-- The name of the file of the project. -/
def projectFile : String := "act.toml"

/-- A directory and those above it, the nearest first. -/
def ancestors (location : Location) : List Location :=
  (List.range (location.length + 1)).map fun above => location.take (location.length - above)

/-- The directory from which a path leads to a file: the working directory, or else the nearest one
above it. An absolute path is taken only as it is. -/
def searchFrom? (disk : Disk) (path : String) : Option Location :=
  let candidates := if Path.isAbsolute path then [[]] else ancestors disk.here
  candidates.find? fun location => disk.isFileIn location path

/-- The names from the top that a path spells from a directory; dots that go up stay. -/
def spelled (location : Location) (path : String) : List String :=
  (if Path.isAbsolute path then [] else location) ++ (Path.names path).map String.ofList

/-- Names seen from a directory. -/
def seenFrom : (here names : List String) → List String
  | first :: here, name :: names =>
    if first = name then seenFrom here names
    else (List.replicate (here.length + 1) "..") ++ name :: names
  | here, names => List.replicate here.length ".." ++ names

/-- A file in messages: as seen from the working directory where that is shorter. -/
def shownFile (disk : Disk) (location : Location) (path : String) : String :=
  let names := spelled location path
  let relative := seenFrom disk.here names
  if relative.length < names.length + 1 then Text.joined "/" relative
  else if Path.isAbsolute path then path
  else "/" ++ Text.joined "/" names

/-- The settings in a file; none if there is no file. -/
def fileSettings (disk : Disk) (path : String) : Except Misfit Table :=
  match searchFrom? disk path with
  | none => .ok .empty
  | some location =>
    let shown := shownFile disk location path
    let content := match disk.locateFrom true location path with
      | .ok (.taken _ item) => (Disk.contentOf item).toOption.getD []
      | _ => []
    match Toml.parseBytes? content with
    | some document => .ok (document.settings (.file shown))
    | none => .error (.malformed shown)

/-- All layers, each laid over the ones before. -/
def layers (disk : Disk) (environment : List (String × String)) (base : String)
    (custom : Option String) : Except Misfit Table := do
  let project ← fileSettings disk (Path.join base projectFile)
  let own ← match custom with
    | some path => fileSettings disk path
    | none => .ok .empty
  return ((builtin.merge project).merge own).merge (Environment.settings environment)

/-- Loads the configuration of the project in the directory `base`. A relative root is taken from
there. -/
def load (disk : Disk) (environment : List (String × String)) (base : String)
    (custom : Option String) : Except Misfit Configuration := do
  let configuration ← ofSettings (← layers disk environment base custom)
  return { configuration with
    layout.root := Path.join base configuration.layout.root }

/-- Where the file with the dependencies of the modules lies. -/
def graphPath (configuration : Configuration) : String :=
  Path.join configuration.layout.root configuration.dependencyGraph

end Configuration
end BuildWarden
