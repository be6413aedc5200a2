import BuildWarden.Fault
import BuildWarden.Path
/-!
# Contexts

What every command is given once and never changes: the platform, the number of cores, the tools
that were found and where the sources lie.
-/

namespace BuildWarden

/-- Where things lie; every other path is taken from `root`. -/
structure Layout where
  root : String := "."
  /-- Includes are written relative to this directory -/
  sources : String := "src"
  library : String := "src/agrum"
  /-- Headers of the test suites -/
  testunits : String := "src/testunits"
  build : String := "build"
  deriving DecidableEq, Repr

namespace Layout

/-- The directory that inclusions start from. -/
def sourcesDir (layout : Layout) : String :=
  Path.join layout.root layout.sources

/-- The directory of the library. -/
def libraryDir (layout : Layout) : String :=
  Path.join layout.root layout.library

/-- The directory of the test suites. -/
def testunitsDir (layout : Layout) : String :=
  Path.join layout.root layout.testunits

/-- The directory of the builds. -/
def buildDir (layout : Layout) : String :=
  Path.join layout.root layout.build

end Layout

/-- The tools of a host. An optional tool that was not found is absent. -/
structure Tools where
  cmake : String := "cmake"
  make : String := "make"
  python : String := "python3"
  msbuild : Option String := some "msbuild"
  clangFormat : Option String := some "clang-format"
  docLinter : Option String := none
  deriving DecidableEq, Repr

/-- What every command is given. -/
structure Context where
  platform : Platform := .unix
  cores : Nat := 8
  tools : Tools := {}
  layout : Layout := {}
  deriving DecidableEq, Repr

end BuildWarden
