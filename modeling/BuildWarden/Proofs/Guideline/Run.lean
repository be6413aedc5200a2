import BuildWarden.Guideline.Report
import BuildWarden.Proofs.Guideline.Pairing
import BuildWarden.Proofs.Guideline.Visit
/-!
# The stages of a run

A run performs its checks one after the other. A `stage` is the world in which one of them starts:
it has the disk that the check before it left, and the report holds what each check says of its
stage. So what a run does to a tree can be told check by check.
-/

namespace BuildWarden.Guideline

private theorem get?_cons (result : CheckResult) (report : Report) (name : String) :
    Report.get? (result :: report) name =
      if result.name = name then some result else report.get? name := by
  unfold Report.get?
  by_cases same : result.name = name
  · rw [List.find?_cons_of_pos (by simpa using same), if_pos same]
  · rw [List.find?_cons_of_neg (by simpa using same), if_neg same]

/-- A linter that touches no file. -/
def DocLinter.Idle (linter : DocLinter) : Prop :=
  ∀ correct settings world, (linter correct settings world).2.disk = world.disk

namespace Inspection

/-- The inspection, with the directories listed in another order. -/
def relisted (inspection : Inspection) (again : Walk → Listing) : Inspection :=
  { inspection with listing := again }

variable (inspection : Inspection)

/-- The pairing check of an inspection. -/
def pairing (correct : Bool) (world : World) : CheckResult × World :=
  checkPairing inspection.settings inspection.layout (inspection.listing .pairing) correct world

/-- The licence check of an inspection. -/
def licenses (correct : Bool) (world : World) : CheckResult × World :=
  checkLicense inspection.settings inspection.layout
    (fun kind => inspection.listing (.license kind)) correct world

/-- The format check of an inspection. -/
def formats (correct : Bool) (world : World) : CheckResult × World :=
  checkFormat inspection.settings inspection.layout inspection.formatter
    (fun kind => inspection.listing (.format kind)) correct world

/-- What the pairing check makes of the headers. -/
def pairingOutcomes (correct : Bool) : World → List Outcome × World :=
  examineHeaders inspection.settings inspection.layout correct (inspection.listing .pairing)

/-- What the licence check makes of the sources. -/
def licenseOutcomes (correct : Bool) : World → List Outcome × World :=
  examineKinds (examineLicense inspection.settings inspection.layout correct) inspection.layout
    (fun kind => inspection.listing (.license kind)) SourceKind.all

/-- What the format check makes of the sources. -/
def formatOutcomes (correct : Bool) : World → List Outcome × World :=
  examineKinds (examineFormat inspection.settings inspection.layout inspection.formatter correct)
    inspection.layout (fun kind => inspection.listing (.format kind)) SourceKind.all

/-- The pairing check counts its outcomes. -/
theorem pairing_eq (correct : Bool) (world : World) :
    inspection.pairing correct world =
      (({ name := "cpp_pairing", kind := "missing cppfile" } : CheckResult).count
        (inspection.pairingOutcomes correct world).1,
        (inspection.pairingOutcomes correct world).2) := by
  unfold pairing checkPairing pairingOutcomes examineHeaders
  dsimp only

/-- The licence check counts its outcomes. -/
theorem licenses_eq (correct : Bool) (world : World) :
    inspection.licenses correct world =
      (({ name := "license", kind := "missing LGPL licence" } : CheckResult).count
        (inspection.licenseOutcomes correct world).1,
        (inspection.licenseOutcomes correct world).2) := by
  unfold licenses checkLicense licenseOutcomes
  generalize examineKinds _ _ _ _ world = examined
  rfl

/-- Without a formatter the format check is skipped and leaves the disk alone. -/
theorem formats_skipped (unavailable : ¬inspection.formatter.available = true) (correct : Bool)
    (world : World) :
    (inspection.formats correct world).1 =
        { name := "format", kind := "format", skipped := true } ∧
      (inspection.formats correct world).2.disk = world.disk := by
  unfold formats checkFormat
  generalize examineKinds _ _ _ _ world = examined
  rw [if_neg unavailable]
  exact ⟨rfl, World.say_disk _ _ _⟩

/-- With a formatter the format check counts its outcomes. -/
theorem formats_eq (available : inspection.formatter.available = true) (correct : Bool)
    (world : World) :
    inspection.formats correct world =
      (({ name := "format", kind := "format" } : CheckResult).count
        (inspection.formatOutcomes correct world).1,
        (inspection.formatOutcomes correct world).2) := by
  unfold formats checkFormat formatOutcomes
  generalize examineKinds _ _ _ _ world = examined
  exact if_pos available

section Names
variable (correct : Bool) (world : World)

/-- The name of the pairing check in the report. -/
theorem pairing_name : (inspection.pairing correct world).1.name = "cpp_pairing" := by
  rw [pairing_eq]
  rfl

/-- The name of the licence check in the report. -/
theorem licenses_name : (inspection.licenses correct world).1.name = "license" := by
  rw [licenses_eq]
  rfl

/-- The name of the format check in the report, also when it is skipped. -/
theorem formats_name : (inspection.formats correct world).1.name = "format" := by
  unfold formats checkFormat
  split <;> rfl

end Names

private theorem checks_eq (correct : Bool) :
    inspection.checks correct =
      [("[(1)] a .cpp file for every .h file", inspection.pairing correct),
        ("[(2)] check for LGPL license", inspection.licenses correct),
        ("[(3)] check for missing documentation in pyAgrum", inspection.checkDocumentation correct),
        ("[(4)] check for format", inspection.formats correct),
        ("[(5)] check for deps", inspection.checkDependencies)] := rfl

/-! ### What the checks visit -/

/-- The visits of the pairing check. -/
def pairingVisits (correct : Bool) (world : World) : List Visit :=
  visitAll (examinePairing inspection.settings inspection.layout correct)
    (SourceKind.headers.sources inspection.layout (inspection.listing .pairing) world.disk) world

/-- The visits of the licence check. -/
def licenseVisits (correct : Bool) (world : World) : List Visit :=
  visitKinds (examineLicense inspection.settings inspection.layout correct) inspection.layout
    (fun kind => inspection.listing (.license kind)) SourceKind.all world

/-- The visits of the format check, which makes none without a formatter. -/
def formatVisits (correct : Bool) (world : World) : List Visit :=
  if inspection.formatter.available then
    visitKinds (examineFormat inspection.settings inspection.layout inspection.formatter correct)
      inspection.layout (fun kind => inspection.listing (.format kind)) SourceKind.all world
  else []

section Counts
variable (correct : Bool) (world : World)

/-- The pairing check counts what becomes of the headers it visits. -/
theorem pairing_counts :
    (inspection.pairing correct world).1 =
      ({ name := "cpp_pairing", kind := "missing cppfile" } : CheckResult).count
        ((inspection.pairingVisits correct world).map Visit.outcome) := by
  rw [pairing_eq, pairingVisits, map_outcome_visitAll]
  rfl

/-- The licence check counts what becomes of the sources it visits. -/
theorem licenses_counts :
    (inspection.licenses correct world).1 =
      ({ name := "license", kind := "missing LGPL licence" } : CheckResult).count
        ((inspection.licenseVisits correct world).map Visit.outcome) := by
  rw [licenses_eq, licenseVisits, map_outcome_visitKinds]
  rfl

/-- The format check counts what becomes of the sources it visits, which are none without a
formatter. -/
theorem formats_counts :
    (inspection.formats correct world).1 =
      ({ name := "format", kind := "format", skipped := !inspection.formatter.available } :
        CheckResult).count ((inspection.formatVisits correct world).map Visit.outcome) := by
  unfold formatVisits
  by_cases available : inspection.formatter.available = true
  · rw [formats_eq inspection available, if_pos available, map_outcome_visitKinds, available]
    rfl
  · rw [(formats_skipped inspection available correct world).1, if_neg available,
      Bool.eq_false_iff.mpr available]
    rfl

end Counts

private theorem perform_disk (title : String) (check : World → CheckResult × World)
    (world : World) :
    (inspection.perform title check world).2.disk =
      (check (world.say inspection.settings (.notice title))).2.disk := by
  unfold perform
  dsimp only
  split
  · rfl
  · exact World.say_disk _ _ _

private theorem checkDependencies_name (world : World) :
    (inspection.checkDependencies world).1.name = "dependencies" :=
  rfl

private theorem checkDependencies_disk (world : World) :
    (inspection.checkDependencies world).2.disk = world.disk := by
  unfold checkDependencies
  dsimp only
  induction inspection.graph.redundancies generalizing world with
  | nil => rfl
  | cons redundancy rest ih =>
      rw [List.foldl_cons, ih, World.say_disk]

/-- The name of the documentation check in the report, however its linter fares. -/
theorem checkDocumentation_name (correct : Bool) (world : World) :
    (inspection.checkDocumentation correct world).1.name = "documentation" := by
  unfold checkDocumentation
  split
  · rfl
  · dsimp only
    split <;> rfl

/-- Without a linter the documentation check is skipped. -/
theorem checkDocumentation_skipped (unlinted : inspection.linter = none) (correct : Bool)
    (world : World) :
    (inspection.checkDocumentation correct world).1 =
      { name := "documentation", kind := "missing documentation", skipped := true } := by
  unfold checkDocumentation
  rw [unlinted]

/-- The documentation check leaves the disk alone if its linter does. -/
theorem checkDocumentation_disk (idle : ∀ linter ∈ inspection.linter, DocLinter.Idle linter)
    (correct : Bool) (world : World) :
    (inspection.checkDocumentation correct world).2.disk = world.disk := by
  unfold checkDocumentation
  cases configured : inspection.linter with
  | none => exact World.say_disk _ _ _
  | some linter =>
      have still := idle linter configured correct inspection.settings world
      dsimp only
      split
      next count after answered => rwa [answered] at still
      next fault after answered =>
        rw [answered] at still
        exact (World.say_disk _ _ _).trans still

/-! ### Stages -/

/-- The world in which the check at a position starts, announced, when the checks before it were
performed. -/
def reach : List (String × (World → CheckResult × World)) → Nat → World → World
  | [], _, world => world
  | (title, _) :: _, 0, world => world.say inspection.settings (.notice title)
  | (title, check) :: rest, position + 1, world =>
    reach rest position (inspection.perform title check world).2

section Reach
variable (checks : List (String × (World → CheckResult × World))) (world : World)

private theorem reach_zero_disk : (inspection.reach checks 0 world).disk = world.disk := by
  cases checks with
  | nil => rfl
  | cons entry rest => exact World.say_disk _ _ _

/-- Each check starts on the disk that the one before it left. -/
theorem reach_succ_disk {position : Nat} {title : String} {check : World → CheckResult × World}
    (entry : checks[position]? = some (title, check)) :
    (inspection.reach checks (position + 1) world).disk =
      (check (inspection.reach checks position world)).2.disk := by
  induction checks generalizing position world with
  | nil => simp at entry
  | cons first rest ih =>
      cases position with
      | zero =>
          obtain rfl : first = (title, check) := by simpa using entry
          exact (reach_zero_disk inspection rest _).trans (perform_disk inspection _ _ _)
      | succ position =>
          rw [List.getElem?_cons_succ] at entry
          exact ih _ entry

private theorem performAll_report :
    (inspection.performAll checks world).1 =
      checks.mapIdx fun position entry => (entry.2 (inspection.reach checks position world)).1 := by
  induction checks generalizing world with
  | nil => rfl
  | cons entry rest ih =>
      rw [List.mapIdx_cons]
      exact congrArg (List.cons _) (ih _)

private theorem performAll_disk :
    (inspection.performAll checks world).2.disk =
      (inspection.reach checks checks.length world).disk := by
  induction checks generalizing world with
  | nil => rfl
  | cons entry rest ih => exact ih _

end Reach

/-- The world in which the check at a position of a run starts. -/
def stage (correct : Bool) (world : World) (position : Nat) : World :=
  inspection.reach (inspection.checks correct) position
    (world.say inspection.settings (.header
      (if correct then "[aGrUM guideline (with correction)]" else "[aGrUM guideline]")))

section Stage
variable (correct : Bool) (world : World)

/-- **What a run reports**: each check on its stage. -/
theorem run_report :
    (inspection.run correct world).1 =
      [(inspection.pairing correct (inspection.stage correct world 0)).1,
        (inspection.licenses correct (inspection.stage correct world 1)).1,
        (inspection.checkDocumentation correct (inspection.stage correct world 2)).1,
        (inspection.formats correct (inspection.stage correct world 3)).1,
        (inspection.checkDependencies (inspection.stage correct world 4)).1] := by
  have reported : (inspection.run correct world).1 = (inspection.checks correct).mapIdx
      fun position entry => (entry.2 (inspection.stage correct world position)).1 :=
    inspection.performAll_report _ _
  rw [reported, checks_eq]
  simp only [List.mapIdx_cons, List.mapIdx_nil]

/-- The first check starts on the disk of the run. -/
theorem stage_zero_disk : (inspection.stage correct world 0).disk = world.disk :=
  (inspection.reach_zero_disk _ _).trans (World.say_disk _ _ _)

/-- The licence check starts on what the pairing check left. -/
theorem stage_one_disk :
    (inspection.stage correct world 1).disk =
      (inspection.pairing correct (inspection.stage correct world 0)).2.disk :=
  inspection.reach_succ_disk _ _ (by rw [checks_eq]; rfl)

/-- The documentation check starts on what the licence check left. -/
theorem stage_two_disk :
    (inspection.stage correct world 2).disk =
      (inspection.licenses correct (inspection.stage correct world 1)).2.disk :=
  inspection.reach_succ_disk _ _ (by rw [checks_eq]; rfl)

/-- The format check starts on what the documentation check left. -/
theorem stage_three_disk :
    (inspection.stage correct world 3).disk =
      (inspection.checkDocumentation correct (inspection.stage correct world 2)).2.disk :=
  inspection.reach_succ_disk _ _ (by rw [checks_eq]; rfl)

/-- The check of dependencies starts on what the format check left. -/
theorem stage_four_disk :
    (inspection.stage correct world 4).disk =
      (inspection.formats correct (inspection.stage correct world 3)).2.disk :=
  inspection.reach_succ_disk _ _ (by rw [checks_eq]; rfl)

/-- The check of dependencies leaves the disk that a run leaves. -/
theorem run_disk :
    (inspection.run correct world).2.disk = (inspection.stage correct world 4).disk := by
  have ended : (inspection.run correct world).2.disk =
      (inspection.stage correct world (inspection.checks correct).length).disk :=
    inspection.performAll_disk _ _
  rw [ended, show (inspection.checks correct).length = 5 by rw [checks_eq]; rfl]
  exact (inspection.reach_succ_disk _ _ (by rw [checks_eq]; rfl)).trans
    (inspection.checkDependencies_disk _)

end Stage

section Get
variable (correct : Bool) (world : World)

/-- The report holds the result of the pairing check on its stage. -/
theorem run_get?_pairing :
    (inspection.run correct world).1.get? "cpp_pairing" =
      some (inspection.pairing correct (inspection.stage correct world 0)).1 := by
  rw [run_report, get?_cons, pairing_name, if_pos rfl]

/-- The report holds the result of the licence check on its stage. -/
theorem run_get?_license :
    (inspection.run correct world).1.get? "license" =
      some (inspection.licenses correct (inspection.stage correct world 1)).1 := by
  rw [run_report, get?_cons, pairing_name, if_neg (by decide), get?_cons, licenses_name, if_pos rfl]

/-- The report holds the result of the documentation check on its stage. -/
theorem run_get?_documentation :
    (inspection.run correct world).1.get? "documentation" =
      some (inspection.checkDocumentation correct (inspection.stage correct world 2)).1 := by
  rw [run_report, get?_cons, pairing_name, if_neg (by decide), get?_cons, licenses_name,
    if_neg (by decide), get?_cons, checkDocumentation_name, if_pos rfl]

/-- The report holds the result of the format check on its stage. -/
theorem run_get?_format :
    (inspection.run correct world).1.get? "format" =
      some (inspection.formats correct (inspection.stage correct world 3)).1 := by
  rw [run_report, get?_cons, pairing_name, if_neg (by decide), get?_cons, licenses_name,
    if_neg (by decide), get?_cons, checkDocumentation_name, if_neg (by decide), get?_cons,
    formats_name, if_pos rfl]

/-- The report holds the result of the check of dependencies on its stage. -/
theorem run_get?_dependencies :
    (inspection.run correct world).1.get? "dependencies" =
      some (inspection.checkDependencies (inspection.stage correct world 4)).1 := by
  rw [run_report, get?_cons, pairing_name, if_neg (by decide), get?_cons, licenses_name,
    if_neg (by decide), get?_cons, checkDocumentation_name, if_neg (by decide), get?_cons,
    formats_name, if_neg (by decide), get?_cons, checkDependencies_name, if_pos rfl]

end Get

/-- **A run without a linter**: the worlds in which the three checks of sources start, the disk that
each of them gets from the one before, and where their results are in the report. -/
theorem exists_stages (unlinted : inspection.linter = none) (correct : Bool) (world : World) :
    ∃ one two three : World,
      one.disk = world.disk ∧ two.disk = (inspection.pairing correct one).2.disk ∧
      three.disk = (inspection.licenses correct two).2.disk ∧
      (inspection.run correct world).2.disk = (inspection.formats correct three).2.disk ∧
      (inspection.run correct world).1.get? "cpp_pairing" =
        some (inspection.pairing correct one).1 ∧
      (inspection.run correct world).1.get? "license" =
        some (inspection.licenses correct two).1 ∧
      (inspection.run correct world).1.get? "format" =
        some (inspection.formats correct three).1 := by
  refine ⟨inspection.stage correct world 0, inspection.stage correct world 1,
    inspection.stage correct world 3, stage_zero_disk .., stage_one_disk .., ?_, ?_,
    run_get?_pairing .., run_get?_license .., run_get?_format ..⟩
  · rw [stage_three_disk, checkDocumentation_disk inspection (by simp [unlinted]), stage_two_disk]
  · rw [run_disk, stage_four_disk]

end Inspection
end BuildWarden.Guideline
