import BuildWarden.Proofs.Guideline.Agreement
import BuildWarden.Proofs.Guideline.Convergence
/-!
# Runs in any order

A file system lists the entries of a directory in an order of its own, and the walks of a run go by
it. What a run reports and the tree that it leaves do not depend on that order.
-/

namespace BuildWarden.Guideline

open Text.Utf8 (encode)

/-- Checks that make the same of each source count the same. -/
theorem count_of_verdicts {site : SourceFile → Location} {visits others : List Visit}
    (result : CheckResult)
    (same : (verdictsElsewhere site (fun _ => False) others).Perm
      (verdictsElsewhere site (fun _ => False) visits)) :
    result.count (others.map Visit.outcome) = result.count (visits.map Visit.outcome) := by
  have all (visits : List Visit) :
      (verdictsElsewhere site (fun _ => False) visits).map Prod.snd = visits.map Visit.outcome := by
    simp [verdictsElsewhere, Visit.verdict]
  have outcomes := same.map Prod.snd
  rw [all, all] at outcomes
  unfold CheckResult.count
  rw [outcomes.countP_eq, outcomes.countP_eq]

namespace Inspection
variable {inspection : Inspection} {again : Walk → Listing} {conduct : FormatterConduct}
  {world : World}

private theorem Regular.relisted (regular : inspection.Regular conduct world.disk)
    (faithful : ∀ walk, (again walk).Faithful) :
    (inspection.relisted again).Regular conduct world.disk :=
  ⟨faithful, regular.plain, regular.named, regular.describes, regular.idle⟩

/-- **The order in which directories are listed is of no account**: a run reports the same, and
leaves the same tree. -/
theorem run_order_independent (regular : inspection.Regular conduct world.disk)
    (unlinted : inspection.linter = none) (faithful : ∀ walk, (again walk).Faithful)
    (correct : Bool) :
    ((inspection.relisted again).run correct world).1 = (inspection.run correct world).1 ∧
      ∀ location, ((inspection.relisted again).run correct world).2.disk.tree.aspect? location =
        (inspection.run correct world).2.disk.tree.aspect? location := by
  have alike : conduct.Alike (fun _ => False) conduct := fun _ _ => ⟨rfl, rfl, rfl⟩
  have agree : RunsAgree (fun _ => False) inspection (inspection.relisted again) correct world
      world :=
    runs_agree regular (regular.relisted faithful) rfl rfl alike (.refl _ _) (fun _ _ => rfl)
      correct
  refine ⟨?_, fun location => agree.disks.seen location id⟩
  have pairing : ((inspection.relisted again).pairing correct
      ((inspection.relisted again).stage correct world 0)).1 =
        (inspection.pairing correct (inspection.stage correct world 0)).1 := by
    rw [pairing_counts, pairing_counts]
    exact count_of_verdicts _ agree.pairing
  have licenses : ((inspection.relisted again).licenses correct
      ((inspection.relisted again).stage correct world 1)).1 =
        (inspection.licenses correct (inspection.stage correct world 1)).1 := by
    rw [licenses_counts, licenses_counts]
    exact count_of_verdicts _ agree.licenses
  have formats : ((inspection.relisted again).formats correct
      ((inspection.relisted again).stage correct world 3)).1 =
        (inspection.formats correct (inspection.stage correct world 3)).1 := by
    rw [formats_counts, formats_counts]
    exact count_of_verdicts _ agree.formats
  have dependencies (one two : World) : ((inspection.relisted again).checkDependencies one).1 =
      (inspection.checkDependencies two).1 := rfl
  rw [run_report, run_report, pairing, licenses, formats,
    checkDocumentation_skipped inspection unlinted,
    checkDocumentation_skipped (inspection.relisted again) unlinted, dependencies]

end Inspection

/-! ### Two headers -/

/-- On a tree of files and directories without a bare header, the usual inspection meets the
conditions on a run. -/
theorem usualInspection_regular {disk : Disk} (plain : disk.tree.Plain)
    (named : disk.NoBareHeader) :
    usualInspection.Regular (leavingTextsConduct disk.locked) disk where
  faithful _ tree := Tree.Reordered.refl tree
  plain := plain
  named := named
  describes := leavingTexts_described _ _
  idle := by simp [usualInspection]

/-- The first two files of a directory in the other order. -/
def swapFront : Listing
  | .leaf first one (.leaf second other rest) => .leaf second other (.leaf first one rest)
  | tree => tree

/-- Swapping the first two entries lists the same files. -/
theorem swapFront_faithful : swapFront.Faithful := by
  intro tree
  unfold swapFront
  split
  next first one second other rest => exact .swap first second (.leaf one) (.leaf other) rest
  · rfl

/-- A library of two headers without a licence, where one unit cannot be written. -/
def twoHeaders : World where
  disk :=
    { tree :=
        .dir "src" (.dir "agrum" (.leaf "a.h" (.file (encode "int a;\n") false)
          (.leaf "b.h" (.file (encode "int b;\n") false) .empty)) .empty) .empty
      locked := (· == ["src", "agrum", "b.cpp"]) }

private theorem names_twoHeaders {listing : Listing} {inside : Tree}
    (listed : listing (.leaf "a.h" (.file (encode "int a;\n") false)
      (.leaf "b.h" (.file (encode "int b;\n") false) .empty)) = inside) :
    (SourceKind.headers.sources {} listing twoHeaders.disk).map SourceFile.name =
      (inside.files.filter fun names =>
        SourceKind.headers.pattern.accepts (names.getLastD "")).map (·.getLastD "") := by
  have start : SourceKind.headers.start {} = "./src/agrum" := by decide
  have steps : Disk.steps "./src/agrum" = [".", "src", "agrum"] := by decide
  have relative : Path.isAbsolute "./src/agrum" = false := by decide
  simp [SourceKind.sources, start, Disk.enumerate, Disk.locate, Disk.locateFrom, steps, relative,
    twoHeaders, Disk.follow, Tree.at?, Tree.find?, listed, SourceFile.below, Function.comp_def]

/-- Two headers are listed in either order, and the run goes the same way. -/
theorem run_order_independent_two_headers :
    let again : Walk → Listing := fun _ => swapFront
    (SourceKind.headers.sources {} id twoHeaders.disk).map SourceFile.name = ["a.h", "b.h"] ∧
      (SourceKind.headers.sources {} swapFront twoHeaders.disk).map SourceFile.name =
        ["b.h", "a.h"] ∧
      twoHeaders.disk.tree.Plain ∧ twoHeaders.disk.NoBareHeader ∧
      ((usualInspection.relisted again).run true twoHeaders).1 =
        (usualInspection.run true twoHeaders).1 := by
  intro again
  have plain : twoHeaders.disk.tree.Plain := by decide
  have named : twoHeaders.disk.NoBareHeader :=
    Disk.noBareHeader_of_files plain (by decide)
  have same := Inspection.run_order_independent (usualInspection_regular plain named) rfl
    (fun _ => swapFront_faithful : ∀ walk, (again walk).Faithful) true
  refine ⟨?_, ?_, plain, named, same.1⟩
  · rw [names_twoHeaders rfl]
    decide
  · rw [names_twoHeaders rfl]
    decide

end BuildWarden.Guideline
