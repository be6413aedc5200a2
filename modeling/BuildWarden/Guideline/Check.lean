import BuildWarden.Build.Context
import BuildWarden.Pattern.Basic
import BuildWarden.Tree.Walk
import BuildWarden.World
/-!
# Checks of sources

A check examines the sources one after the other and counts what it finds. Failures stay with the
file they belong to: they are reported and the check goes on.
-/

namespace BuildWarden.Guideline

/-- What a check found. -/
structure CheckResult where
  name : String
  /-- What is counted, as the summary calls it -/
  kind : String
  violations : Nat := 0
  corrected : Nat := 0
  /-- The check could not run -/
  skipped : Bool := false
  deriving DecidableEq, Repr

/-- What became of one source. -/
inductive Outcome where
  | fine
  | violation (corrected : Bool)
  deriving DecidableEq, Repr

/-- Counts the outcomes of a check. -/
def CheckResult.count (result : CheckResult) (outcomes : List Outcome) : CheckResult :=
  { result with
    violations := result.violations + outcomes.countP (· != .fine)
    corrected := result.corrected + outcomes.countP (· == .violation true) }

/-- Examines one source. -/
abbrev Examination := SourceFile → World → Outcome × World

/-- Examines sources one after the other. -/
def examineAll (examine : Examination) : List SourceFile → World → List Outcome × World
  | [], world => ([], world)
  | file :: rest, world =>
    let (outcome, world) := examine file world
    let (outcomes, world) := examineAll examine rest world
    (outcome :: outcomes, world)

/-- The three kinds of library sources. -/
inductive SourceKind where
  | units
  | headers
  | suites
  deriving DecidableEq, Repr

namespace SourceKind

/-- The names of the sources of a kind. -/
def pattern : SourceKind → Pattern
  | units => .endingIn ".cpp"
  | headers => .endingIn ".h"
  | suites => .endingIn "TestSuite.h"

/-- Where the sources of a kind lie. -/
def start (layout : Layout) : SourceKind → String
  | units | headers => layout.libraryDir
  | suites => layout.testunitsDir

/-- The order in which the kinds are examined. -/
def all : List SourceKind := [units, headers, suites]

/-- The sources of a kind that are there now. -/
def sources (kind : SourceKind) (layout : Layout) (listing : Listing) (disk : Disk) :
    List SourceFile :=
  disk.enumerate listing (kind.start layout) kind.pattern.accepts

end SourceKind

/-- Every library source: the source units and headers of the library, and the test suites. -/
def librarySources (layout : Layout) (listing : SourceKind → Listing) (disk : Disk) :
    List SourceFile :=
  SourceKind.all.flatMap fun kind => kind.sources layout (listing kind) disk

/-- Examines kinds of sources one after the other; each kind is listed when its turn comes. -/
def examineKinds (examine : Examination) (layout : Layout) (listing : SourceKind → Listing) :
    List SourceKind → World → List Outcome × World
  | [], world => ([], world)
  | kind :: rest, world =>
    let files := kind.sources layout (listing kind) world.disk
    let (outcomes, world) := examineAll examine files world
    let (others, world) := examineKinds examine layout listing rest world
    (outcomes ++ others, world)

/-- The content of a file that is there. -/
def contentAt (disk : Disk) (location : Location) : Except OsFault Bytes :=
  match disk.tree.at? location with
  | some item => Disk.contentOf item
  | none => .error .missing

/-- How a source is called in messages. -/
def shownName (layout : Layout) (file : SourceFile) : String :=
  Path.relativeTo layout.root file.path

/-- The same text for one, with an `s` for more. -/
def plural (count : Nat) (text : String) : String :=
  if count > 1 then text ++ "s" else text

/-! ### Exceptions

Sources that a check leaves alone, by fragments of their path. The path is matched with a slash in
front, so a fragment between slashes names a directory at any depth, the top included. -/

/-- Whether one of the fragments occurs in the path. -/
def isExcepted (path : String) (fragments : List String) : Bool :=
  fragments.any fun fragment => Text.contains fragment ("/" ++ path)

/-- Left alone by the pairing check. -/
def pairingExceptions : List String :=
  ["/mvsc/", "/signal/", "/external/", "multidim/patterns/"]

/-- Left alone by the licence check. -/
def licenseExceptions : List String :=
  ["/mvsc/", "/external/", "/cxxtest/", "Parser", "Scanner"]

/-- Left alone by the format check. -/
def formatExceptions : List String :=
  ["/external/", "Parser", "Scanner"]

end BuildWarden.Guideline
