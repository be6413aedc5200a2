import BuildWarden.Guideline.Format
import BuildWarden.Guideline.License
import BuildWarden.Guideline.ModuleGraph
import BuildWarden.Guideline.Pairing
/-!
# Guideline reports

All the checks, one after the other on the same tree: pairing, licences, documentation, formatting
and dependencies. A check that fails is reported as skipped, so there is always a report of five
results.
-/

namespace BuildWarden.Guideline

/-- Counts what has no documentation, and may add it. -/
abbrev DocLinter := (correct : Bool) → Console.Settings → World → Except Fault Nat × World

/-- The walks of one run, each of which may list directories in its own order. -/
inductive Walk where
  | pairing
  | license (kind : SourceKind)
  | format (kind : SourceKind)
  deriving DecidableEq, Repr

/-- What the checks need to know. -/
structure Inspection where
  settings : Console.Settings
  layout : Layout
  formatter : Formatter
  linter : Option DocLinter
  graph : ModuleGraph
  listing : Walk → Listing := fun _ => id

/-- The results of the checks, in order. -/
abbrev Report := List CheckResult

/-- The number of violations in all. -/
def Report.total (report : Report) : Nat :=
  report.foldr (fun result total => result.violations + total) 0

/-- The result of the check of that name. -/
def Report.get? (report : Report) (name : String) : Option CheckResult :=
  report.find? (·.name == name)

namespace Inspection

/-- Checks the documentation. -/
def checkDocumentation (inspection : Inspection) (correct : Bool) (world : World) :
    CheckResult × World :=
  let result : CheckResult := { name := "documentation", kind := "missing documentation" }
  match inspection.linter with
  | none =>
    ({ result with skipped := true },
      world.say inspection.settings
        (.warning "No documentation linter configured, check skipped"))
  | some linter =>
    match linter correct inspection.settings world with
    | (.ok count, world) => ({ result with violations := count }, world)
    | (.error fault, world) =>
      ({ result with skipped := true },
        world.say inspection.settings
          (.error ("Documentation linter failed: " ++ fault.message)))

/-- Checks the declared dependencies. -/
def checkDependencies (inspection : Inspection) (world : World) : CheckResult × World :=
  let found := inspection.graph.redundancies
  ({ name := "dependencies", kind := "redundant dependency", violations := found.length },
    found.foldl (fun world redundancy =>
      world.say inspection.settings (.error ("[" ++ redundancy.module ++ "] depends on ["
        ++ redundancy.dependency ++ "] which is already provided by [" ++ redundancy.via ++ "]")))
      world)

/-- Announces a check, runs it, and sums up what it found. -/
def perform (inspection : Inspection) (title : String) (check : World → CheckResult × World)
    (world : World) : CheckResult × World :=
  let (result, world) := check (world.say inspection.settings (.notice title))
  let summary :=
    plural result.violations (toString result.violations ++ " " ++ result.kind ++ " error")
  (result, if result.violations = 0 then world else world.say inspection.settings (.error summary))

/-- The checks in order, with their titles. -/
def checks (inspection : Inspection) (correct : Bool) :
    List (String × (World → CheckResult × World)) :=
  let settings := inspection.settings
  let layout := inspection.layout
  [("[(1)] a .cpp file for every .h file",
      checkPairing settings layout (inspection.listing .pairing) correct),
    ("[(2)] check for LGPL license",
      checkLicense settings layout (fun kind => inspection.listing (.license kind)) correct),
    ("[(3)] check for missing documentation in pyAgrum", inspection.checkDocumentation correct),
    ("[(4)] check for format",
      checkFormat settings layout inspection.formatter
        (fun kind => inspection.listing (.format kind)) correct),
    ("[(5)] check for deps", inspection.checkDependencies)]

/-- Performs checks one after the other. -/
def performAll (inspection : Inspection) :
    List (String × (World → CheckResult × World)) → World → Report × World
  | [], world => ([], world)
  | (title, check) :: rest, world =>
    let (result, world) := inspection.perform title check world
    let (results, world) := inspection.performAll rest world
    (result :: results, world)

/-- Runs all checks, correcting what can be corrected if asked to. -/
def run (inspection : Inspection) (correct : Bool) (world : World) : Report × World :=
  let title :=
    if correct then "[aGrUM guideline (with correction)]" else "[aGrUM guideline]"
  inspection.performAll (inspection.checks correct)
    (world.say inspection.settings (.header title))

end Inspection
end BuildWarden.Guideline
