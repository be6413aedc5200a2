import BuildWarden.Proofs.Guideline.Format
import BuildWarden.Proofs.Guideline.Run
/-!
# Correcting runs converge

A run performs its checks one after the other on one tree, and each check may undo what an earlier
one did. It does not: licences and formatting add no files, and formatting keeps licences. So one
correcting run leaves exactly what could not be corrected, and where everything could, another run
changes nothing. This takes a formatter that treats a source alike by all its paths: another one may
refuse a source by one path and rewrite it by the next.
-/

namespace BuildWarden.Guideline

open Text.Utf8 (encode)

/-! ### What one check leaves -/

/-- A check that finds on a disk what an earlier one left, changing nothing where it does not
correct; and where nothing was left, it corrects nothing either. -/
structure Settled (check : Bool → World → CheckResult × World) (first : CheckResult) (disk : Disk) :
    Prop where
  left : ∀ world, world.disk = disk →
    (check false world).1.violations + first.corrected = first.violations
  still : ∀ world, world.disk = disk → (check false world).2.disk = disk
  idle : first.corrected = first.violations →
    ∀ world, world.disk = disk → (check true world).2.disk = disk

/-- A check that counts outcomes is settled if it finds what an earlier one could not correct. -/
theorem Settled.of_outcomes {check : Bool → World → CheckResult × World} {first fresh : CheckResult}
    {examined : Bool → World → List Outcome × World} {outcomes : List Outcome} {disk : Disk}
    (counts : ∀ correct world,
      check correct world = (fresh.count (examined correct world).1, (examined correct world).2))
    (counted : first = fresh.count outcomes) (zero : fresh.violations = 0)
    (none : fresh.corrected = 0)
    (converges : ∀ next : World, next.disk = disk →
      (examined false next).1.countP (· != .fine) = unresolved outcomes ∧
        (examined false next).2.disk = disk ∧
        ((examined false next).1.countP (· != .fine) = 0 → (examined true next).2.disk = disk)) :
    Settled check first disk := by
  have parts := CheckResult.violations_count (zero.trans none.symm) outcomes
  rw [← counted] at parts
  refine ⟨fun world same => ?_, fun world same => ?_, fun all world same => ?_⟩
  · rw [counts, parts, ← (converges world same).1]
    simp [CheckResult.count, zero]
  · rw [counts]
    exact (converges world same).2.1
  · obtain ⟨later, -, idle⟩ := converges world same
    rw [counts]
    exact idle (later.trans (by omega))

/-- The names of the checks that correct. -/
def correctingChecks : List String := ["cpp_pairing", "license", "format"]

namespace Inspection
variable {inspection : Inspection} {again : Walk → Listing} {rule : FormattingRule}
  {world : World} {start disk : Disk}

section Settled
variable (faithful : ∀ walk, (inspection.listing walk).Faithful)
  (faithfulAgain : ∀ walk, (again walk).Faithful) (plain : world.disk.tree.Plain)
include faithful plain

private theorem pairing_grows :
    Grows world.disk.locked world.disk (inspection.pairing true world).2.disk := by
  rw [pairing_eq]
  dsimp only [pairingOutcomes]
  exact (examineHeaders_settles inspection.settings inspection.layout (faithful .pairing) plain).1

private theorem licenses_keeps :
    (licensing world.disk.locked).Keeps world.disk (inspection.licenses true world).2.disk := by
  rw [licenses_eq]
  dsimp only [licenseOutcomes]
  exact Amendment.keeps_examineKinds
    (licensing_performs inspection.settings inspection.layout world.disk true) (.refl _ _) plain
    (Amendment.respects_self _) fun kind => faithful (.license kind)

include faithfulAgain

private theorem pairing_settled
    (grows : Grows world.disk.locked (inspection.pairing true world).2.disk disk) :
    Settled (inspection.relisted again).pairing (inspection.pairing true world).1 disk := by
  rw [pairing_eq] at grows ⊢
  refine .of_outcomes (inspection.relisted again).pairing_eq rfl rfl rfl ?_
  rintro next rfl
  dsimp only [pairingOutcomes, relisted] at grows ⊢
  exact pairing_converges inspection.settings inspection.layout (faithful .pairing) plain
    (faithfulAgain .pairing) grows

private theorem licenses_settled
    (keeps : (licensing world.disk.locked).Keeps (inspection.licenses true world).2.disk disk) :
    Settled (inspection.relisted again).licenses (inspection.licenses true world).1 disk := by
  rw [licenses_eq] at keeps ⊢
  refine .of_outcomes (inspection.relisted again).licenses_eq rfl rfl rfl ?_
  rintro next rfl
  dsimp only [licenseOutcomes, relisted] at keeps ⊢
  exact Amendment.check_converges (licensing_settles world.disk.locked)
    (licensing_performs inspection.settings inspection.layout world.disk true)
    (licensing_performs inspection.settings inspection.layout world.disk false)
    (fun kind => faithful (.license kind)) (fun kind => faithfulAgain (.license kind))
    (.refl _ _) plain keeps

section Format
variable (governs : rule.Governs inspection.formatter inspection.layout start)
  (coherent : rule.Coherent inspection.layout start) (starts : start.tree.Plain)
  (reached : start.Develops world.disk)
include governs coherent starts reached

omit faithfulAgain in
/-- What a formatter respects is kept by the format check. -/
theorem formats_keeps {other : Amendment}
    (respects : (rule.formatting inspection.layout start).Respects other) :
    other.Keeps world.disk (inspection.formats true world).2.disk := by
  by_cases available : inspection.formatter.available = true
  · rw [formats_eq inspection available]
    dsimp only [formatOutcomes]
    exact Amendment.keeps_examineKinds
      (formatting_performs governs coherent starts inspection.settings true) reached plain respects
      fun kind => faithful (.format kind)
  · rw [(formats_skipped inspection available true world).2]

private theorem formats_settled (stable : rule.Stable)
    (keeps : (rule.formatting inspection.layout start).Keeps (inspection.formats true world).2.disk
      disk) :
    Settled (inspection.relisted again).formats (inspection.formats true world).1 disk := by
  by_cases available : inspection.formatter.available = true
  · rw [formats_eq inspection available] at keeps ⊢
    refine .of_outcomes ((inspection.relisted again).formats_eq available) rfl rfl rfl ?_
    rintro next rfl
    dsimp only [formatOutcomes, relisted] at keeps ⊢
    exact Amendment.check_converges (FormattingRule.formatting_settles stable)
      (formatting_performs governs coherent starts inspection.settings true)
      (formatting_performs governs coherent starts inspection.settings false)
      (fun kind => faithful (.format kind)) (fun kind => faithfulAgain (.format kind)) reached plain
      keeps
  · have skipped := (inspection.relisted again).formats_skipped available
    refine ⟨fun next same => ?_, fun next same => ?_, fun _ next same => ?_⟩
    · rw [(skipped false next).1, (inspection.formats_skipped available true world).1]
      rfl
    · rw [(skipped false next).2, same]
    · rw [(skipped true next).2, same]

end Format

/-! ### The run -/

section Run
variable (unlinted : inspection.linter = none) (stable : rule.Stable) (licensed : rule.KeepsLicense)
  (governs : rule.Governs inspection.formatter inspection.layout world.disk)
  (coherent : rule.Coherent inspection.layout world.disk)
include unlinted stable licensed governs coherent

variable (again) in
/-- **A correcting run settles its three checks of sources** on the disk that it leaves. -/
theorem run_settled :
    ∃ pairing license format : CheckResult,
      (inspection.run true world).1.get? "cpp_pairing" = some pairing ∧
      (inspection.run true world).1.get? "license" = some license ∧
      (inspection.run true world).1.get? "format" = some format ∧
      Settled (inspection.relisted again).pairing pairing (inspection.run true world).2.disk ∧
      Settled (inspection.relisted again).licenses license (inspection.run true world).2.disk ∧
      Settled (inspection.relisted again).formats format (inspection.run true world).2.disk := by
  obtain ⟨one, two, three, starts, paired, continued, ended, pairing, license, format⟩ :=
    inspection.exists_stages unlinted true world
  have plainOne : one.disk.tree.Plain := by rwa [starts]
  have grows := pairing_grows faithful plainOne
  rw [← paired] at grows
  have plainTwo := grows.plain plainOne
  have keeps := licenses_keeps faithful plainTwo
  rw [← continued] at keeps
  have plainThree := keeps.plain plainTwo
  have reached : world.disk.Develops three.disk := by
    rw [← starts]
    exact (grows.toGains.develops grows.plain).trans keeps.develops
  have further : (licensing two.disk.locked).Keeps three.disk
      (inspection.formats true three).2.disk :=
    formats_keeps faithful plainThree governs coherent plain reached
      (FormattingRule.formatting_respects_licensing licensed _)
  rw [ended]
  refine ⟨_, _, _, pairing, license, format, ?_, ?_, ?_⟩
  · refine pairing_settled faithful faithfulAgain plainOne ?_
    rw [← paired]
    exact (keeps.grows _).trans (further.grows _)
  · refine licenses_settled faithful faithfulAgain plainTwo ?_
    rwa [← continued]
  · exact formats_settled faithful faithfulAgain plainThree governs coherent plain reached stable
      (.refl _ _)

/-- **One correcting run converges.** The next run, in whatever order it lists directories, finds in
each check that corrects what the first one could not correct. If that is nothing, another
correcting run changes nothing. -/
theorem correction_converges {next : World}
    (continues : next.disk = (inspection.run true world).2.disk) :
    (∀ name ∈ correctingChecks, ∃ first second,
      (inspection.run true world).1.get? name = some first ∧
        ((inspection.relisted again).run false next).1.get? name = some second ∧
        second.violations + first.corrected = first.violations) ∧
      ((inspection.relisted again).run false next).2.disk = next.disk ∧
      ((∀ name ∈ correctingChecks, ∀ first, (inspection.run true world).1.get? name = some first →
          first.corrected = first.violations) →
        (∀ name ∈ correctingChecks, ∀ second,
          ((inspection.relisted again).run false next).1.get? name = some second →
            second.violations = 0) ∧
          ((inspection.relisted again).run true next).2.disk = next.disk) := by
  obtain ⟨pairing, license, format, paired, licensing, formatted, pairs, licenses, formats⟩ :=
    run_settled again faithful faithfulAgain plain unlinted stable licensed governs coherent
  rw [← continues] at pairs licenses formats
  obtain ⟨one, two, three, starts, first, second, third, pairing', license', format'⟩ :=
    (inspection.relisted again).exists_stages unlinted false next
  have twoStill : two.disk = next.disk := first.trans (pairs.still one starts)
  have threeStill : three.disk = next.disk := second.trans (licenses.still two twoStill)
  have finds : ∀ name ∈ correctingChecks, ∃ first second,
      (inspection.run true world).1.get? name = some first ∧
        ((inspection.relisted again).run false next).1.get? name = some second ∧
        second.violations + first.corrected = first.violations := by
    intro name member
    simp only [correctingChecks, List.mem_cons, List.not_mem_nil, or_false] at member
    rcases member with rfl | rfl | rfl
    · exact ⟨_, _, paired, pairing', pairs.left one starts⟩
    · exact ⟨_, _, licensing, license', licenses.left two twoStill⟩
    · exact ⟨_, _, formatted, format', formats.left three threeStill⟩
  refine ⟨finds, third.trans (formats.still three threeStill), fun all => ⟨?_, ?_⟩⟩
  · intro name member second found
    obtain ⟨first, second', reported, reported', sum⟩ := finds name member
    rw [reported'] at found
    cases found
    have corrected := all name member first reported
    omega
  · obtain ⟨one, two, three, starts, first, second, third, -⟩ :=
      (inspection.relisted again).exists_stages unlinted true next
    have twoIdle : two.disk = next.disk :=
      first.trans (pairs.idle (all _ (by decide) _ paired) one starts)
    have threeIdle : three.disk = next.disk :=
      second.trans (licenses.idle (all _ (by decide) _ licensing) two twoIdle)
    exact third.trans (formats.idle (all _ (by decide) _ formatted) three threeIdle)

end Run
end Settled
end Inspection

/-- The usual inspection with the formatter that leaves texts. -/
def usualInspection : Inspection where
  settings := {}
  layout := {}
  formatter := textLeaver
  linter := none
  graph := {}

/-- A library of one header without a licence, whose unit cannot be written. -/
def lockedUnit : World where
  disk :=
    { tree :=
        .dir "src" (.dir "agrum" (.leaf "a.h" (.file (encode "int a;\n") false) .empty) .empty)
          .empty
      locked := (· == ["src", "agrum", "a.cpp"]) }

private theorem sources_lockedUnit :
    SourceKind.headers.sources {} id lockedUnit.disk =
      [⟨"./src/agrum/a.h", ["src", "agrum"], "a.h"⟩] := by
  have start : SourceKind.headers.start {} = "./src/agrum" := by decide
  have steps : Disk.steps "./src/agrum" = [".", "src", "agrum"] := by decide
  have relative : Path.isAbsolute "./src/agrum" = false := by decide
  have accepted : SourceKind.headers.pattern.accepts "a.h" = true := by decide
  have path : Path.join "./src/agrum" "a.h" = "./src/agrum/a.h" := by decide
  simp [SourceKind.sources, start, Disk.enumerate, Disk.locate, Disk.locateFrom, steps, relative,
    lockedUnit, Disk.follow, Tree.at?, Tree.find?, Tree.files, Tree.filesInside, Tree.ownFiles,
    accepted, SourceFile.below, path]

/-- The unit that cannot be written is one violation, and it is not corrected. -/
theorem pairingOutcomes_lockedUnit {world : World} (starts : world.disk = lockedUnit.disk) :
    (usualInspection.pairingOutcomes true world).1 = [.violation false] := by
  have needed : needsUnit {} ⟨"./src/agrum/a.h", ["src", "agrum"], "a.h"⟩ = true := by decide
  have unit : unitName ⟨"./src/agrum/a.h", ["src", "agrum"], "a.h"⟩ = "a.cpp" := by decide
  have plain : lockedUnit.disk.tree.Plain := by decide
  have named : IsName "a.cpp" := ⟨by decide, by decide⟩
  have missing : lockedUnit.disk.isFileIn ["src", "agrum"] "a.cpp" = false := by
    rw [← Bool.not_eq_true, Disk.isFileIn_iff plain named rfl]
    decide
  have refused (content : Bytes) :
      lockedUnit.disk.writeIn ["src", "agrum"] "a.cpp" content = .error .denied :=
    Disk.writeIn_vacant plain named rfl rfl content
  simp only [Inspection.pairingOutcomes, usualInspection, examineHeaders, starts,
    sources_lockedUnit, examineAll, examinePairing, needed, unit, missing, refused, Bool.not_true,
    Bool.or_self, Bool.false_eq_true, ↓reduceIte]

/-- A unit that cannot be written is missing in both runs. -/
theorem correction_converges_locked_unit :
    let first := usualInspection.run true lockedUnit
    let second := usualInspection.run false first.2
    lockedUnit.disk.tree.Plain ∧ (leavingTexts lockedUnit.disk).Stable ∧
      (leavingTexts lockedUnit.disk).KeepsLicense ∧
      (leavingTexts lockedUnit.disk).Governs textLeaver {} lockedUnit.disk ∧
      (leavingTexts lockedUnit.disk).Coherent {} lockedUnit.disk ∧
      ∃ pairing pairing', first.1.get? "cpp_pairing" = some pairing ∧ pairing.violations = 1 ∧
        pairing.corrected = 0 ∧ second.1.get? "cpp_pairing" = some pairing' ∧
        pairing'.violations = 1 := by
  intro first second
  have plain : lockedUnit.disk.tree.Plain := by decide
  have faithful (walk : Walk) : (usualInspection.listing walk).Faithful :=
    fun tree => Tree.Reordered.refl tree
  have stable := leavingTexts_stable lockedUnit.disk
  have licensed := leavingTexts_keepsLicense lockedUnit.disk
  have governs := leavingTexts_governs {} plain
  have coherent := leavingTexts_coherent {} plain
  obtain ⟨pairing, pairing', reported, reported', left⟩ :=
    (Inspection.correction_converges faithful faithful plain rfl stable licensed governs coherent
      rfl).1 "cpp_pairing" (by decide)
  obtain ⟨one, two, three, starts, -, -, -, found, -⟩ :=
    usualInspection.exists_stages rfl true lockedUnit
  obtain rfl : (usualInspection.pairing true one).1 = pairing :=
    Option.some.inj (found.symm.trans reported)
  have counted : (usualInspection.pairing true one).1.violations = 1 ∧
      (usualInspection.pairing true one).1.corrected = 0 := by
    rw [Inspection.pairing_eq, pairingOutcomes_lockedUnit starts]
    exact ⟨rfl, rfl⟩
  refine ⟨plain, stable, licensed, governs, coherent, _, pairing', reported, counted.1, counted.2,
    reported', ?_⟩
  omega

/-! ### A source that two paths lead to

Without coherence a correcting run need not converge. The test suites of this layout lie in the
library, which their path reaches by a detour, and the formatter rewrites files by such a path
only. -/

/-- A layout whose test suites lie in the library. -/
def detouredLayout : Layout where
  testunits := "src/../src/agrum"

/-- How a licensed source should read. -/
def tidyText : String :=
  "// " ++ licenseMarker ++ "\n"

/-- The same with a blank too much. -/
def untidyText : String :=
  "// " ++ licenseMarker ++ " \n"

/-- Licensed sources should all read the same; a path without a detour is refused. -/
def detourRule : FormattingRule where
  text? _ content := if hasLicense content then some tidyText else none
  refuses path _ := !Text.contains ".." path

/-- A formatter that goes by the rule. -/
def detourFormatter : Formatter where
  name := "detour"
  available := true
  reformat file world :=
    match world.disk.read file.path with
    | .error fault => (.error fault.message, world)
    | .ok content =>
      if hasLicense content then (.ok tidyText, world) else (.error "no licence", world)
  apply file world :=
    if Text.contains ".." file.path then
      match world.disk.write file.path (encode tidyText) with
      | .error fault => (.error fault.message, world)
      | .ok disk => (.ok (), { world with disk })
    else (.error "no detour", world)

/-- The inspection of this layout with this formatter. -/
def detouredInspection : Inspection where
  settings := {}
  layout := detouredLayout
  formatter := detourFormatter
  linter := none
  graph := {}

/-- A library of one test suite, which needs no unit. -/
def suiteDisk (text : String) : Disk where
  tree :=
    .dir "src"
      (.dir "agrum" (.dir "signal" (.leaf "ATestSuite.h" (.file (encode text) false) .empty)
        .empty) .empty) .empty

/-- The library whose suite has a blank too much. -/
def untidySuite : World where
  disk := suiteDisk untidyText

/-- The path of the suite in the library. -/
def straightPath : String :=
  "./src/agrum/signal/ATestSuite.h"

/-- The path of the suite among the test suites. -/
def roundPath : String :=
  "./src/../src/agrum/signal/ATestSuite.h"

/-- The suite, as it is listed by a path. -/
def suiteAt (path : String) : SourceFile :=
  ⟨path, ["src", "agrum", "signal"], "ATestSuite.h"⟩

private theorem hasLicense_tidyText : hasLicense (encode tidyText) = true := by
  decide +kernel

private theorem hasLicense_untidyText : hasLicense (encode untidyText) = true := by
  decide +kernel

private theorem text?_detourRule {path : String} {content : Bytes} {text : String} :
    detourRule.text? path content = some text ↔ hasLicense content = true ∧ tidyText = text := by
  simp [detourRule]

/-- The formatter follows the rule on every disk where all files can be written. -/
theorem detourRule_governs {start : Disk} (unlocked : ∀ place, start.locked place = false) :
    detourRule.Governs detourFormatter detouredLayout start where
  reformats := by
    intro file world content executable _ _ leads
    simp only [detourFormatter, detourRule, Disk.read_of_open? leads]
    split
    · exact ⟨rfl, rfl⟩
    · exact ⟨rfl, rfl⟩
  fails := by
    intro file world content executable _ _ _ refuses
    have straight : Text.contains ".." file.path = false := by simpa [detourRule] using refuses
    simp only [detourFormatter, straight, Bool.false_eq_true, ↓reduceIte]
    exact ⟨⟨_, rfl⟩, trivial⟩
  stores := by
    intro file world content executable text reached _ leads willing reformatted
    have round : Text.contains ".." file.path = true := by simpa [detourRule] using willing
    obtain ⟨-, rfl⟩ := text?_detourRule.mp reformatted
    have writable : world.disk.locked file.location = false := by rw [reached.locked, unlocked]
    simp only [detourFormatter, round, Disk.write_of_open? leads, writable, Bool.false_eq_true,
      ↓reduceIte]
    exact ⟨trivial, executable, rfl⟩

/-- The rule leaves the text alone that it gives to files. -/
theorem detourRule_stable : detourRule.Stable := by
  intro path content text reformatted
  obtain ⟨-, rfl⟩ := text?_detourRule.mp reformatted
  exact text?_detourRule.mpr ⟨hasLicense_tidyText, rfl⟩

/-- The rule gives a text to licensed files only, and that text is licensed. -/
theorem detourRule_keepsLicense : detourRule.KeepsLicense := by
  intro path content text reformatted
  obtain ⟨licensed, rfl⟩ := text?_detourRule.mp reformatted
  rw [hasLicense_tidyText, licensed]

section Suite
variable {text path : String} {world : World}

private theorem aspect?_suiteDisk (text path : String) :
    (suiteDisk text).tree.aspect? (suiteAt path).location = some (.file (encode text)) := by
  simp [suiteDisk, suiteAt, SourceFile.location, Tree.aspect?, Tree.at?, Tree.find?, Item.aspect]

/-- Both paths lead to the suite. -/
private theorem open?_suiteDisk (text : String) (known : path ∈ [straightPath, roundPath]) :
    (suiteDisk text).open? path =
      .ok ((suiteAt path).location, .leaf (.file (encode text) false)) := by
  have straight : Disk.steps straightPath = [".", "src", "agrum", "signal", "ATestSuite.h"] := by
    decide
  have round : Disk.steps roundPath =
      [".", "src", "..", "src", "agrum", "signal", "ATestSuite.h"] := by
    decide
  have relative : Path.isAbsolute straightPath = false := by decide
  have relativeToo : Path.isAbsolute roundPath = false := by decide
  have named : straightPath ≠ "" := by decide
  have namedToo : roundPath ≠ "" := by decide
  simp only [List.mem_cons, List.not_mem_nil, or_false] at known
  rcases known with rfl | rfl
  · simp [Disk.open?, Disk.locate, Disk.locateFrom, straight, relative, named, Disk.follow,
      suiteDisk, Tree.at?, Tree.find?, suiteAt, SourceFile.location]
  · simp [Disk.open?, Disk.locate, Disk.locateFrom, round, relativeToo, namedToo, Disk.follow,
      suiteDisk, Tree.at?, Tree.find?, suiteAt, SourceFile.location]

/-- The suite is listed with the headers by its straight path, and with the suites by the other. -/
private theorem sources_suiteDisk (text : String) (kind : SourceKind) :
    kind.sources detouredLayout id (suiteDisk text) =
      match kind with
      | .units => []
      | .headers => [suiteAt straightPath]
      | .suites => [suiteAt roundPath] := by
  have library : detouredLayout.libraryDir = "./src/agrum" := by decide
  have tests : detouredLayout.testunitsDir = "./src/../src/agrum" := by decide
  have straight : Disk.steps "./src/agrum" = [".", "src", "agrum"] := by decide
  have round : Disk.steps "./src/../src/agrum" = [".", "src", "..", "src", "agrum"] := by decide
  have relative : Path.isAbsolute "./src/agrum" = false := by decide
  have relativeToo : Path.isAbsolute "./src/../src/agrum" = false := by decide
  have unit : SourceKind.units.pattern.accepts "ATestSuite.h" = false := by decide
  have header : SourceKind.headers.pattern.accepts "ATestSuite.h" = true := by decide
  have suite : SourceKind.suites.pattern.accepts "ATestSuite.h" = true := by decide
  have path : Path.join (Path.join "./src/agrum" "signal") "ATestSuite.h" = straightPath := by
    decide
  have pathToo :
      Path.join (Path.join "./src/../src/agrum" "signal") "ATestSuite.h" = roundPath := by
    decide
  cases kind with
  | units =>
      simp [SourceKind.sources, SourceKind.start, library, Disk.enumerate, Disk.locate,
        Disk.locateFrom, straight, relative, suiteDisk, Disk.follow, Tree.at?, Tree.find?,
        Tree.files, Tree.filesInside, Tree.ownFiles, unit]
  | headers =>
      simp [SourceKind.sources, SourceKind.start, library, Disk.enumerate, Disk.locate,
        Disk.locateFrom, straight, relative, suiteDisk, Disk.follow, Tree.at?, Tree.find?,
        Tree.files, Tree.filesInside, Tree.ownFiles, header, SourceFile.below, path, suiteAt]
  | suites =>
      simp [SourceKind.sources, SourceKind.start, tests, Disk.enumerate, Disk.locate,
        Disk.locateFrom, round, relativeToo, suiteDisk, Disk.follow, Tree.at?, Tree.find?,
        Tree.files, Tree.filesInside, Tree.ownFiles, suite, SourceFile.below, pathToo, suiteAt]

/-- So the suite is examined twice. -/
private theorem examineKinds_suiteDisk {examine : Examination} {left : String}
    (starts : world.disk = suiteDisk text)
    (leaves : (examine (suiteAt straightPath) world).2.disk = suiteDisk left) :
    let first := examine (suiteAt straightPath) world
    let second := examine (suiteAt roundPath) first.2
    examineKinds examine detouredLayout (fun _ => id) SourceKind.all world =
      ([first.1, second.1], second.2) := by
  intro first second
  simp only [SourceKind.all, examineKinds, starts, sources_suiteDisk, examineAll, leaves,
    List.nil_append, List.append_nil, List.cons_append, first, second]

private theorem pairing_suiteDisk (correct : Bool) (starts : world.disk = suiteDisk text) :
    (detouredInspection.pairing correct world).2.disk = suiteDisk text := by
  have unneeded : needsUnit detouredLayout (suiteAt straightPath) = false := by decide
  rw [Inspection.pairing_eq]
  change (examineHeaders {} detouredLayout correct id world).2.disk = _
  simp only [examineHeaders, starts, sources_suiteDisk, examineAll, examinePairing, unneeded,
    Bool.not_false, Bool.true_or, ↓reduceIte]

private theorem licenses_suiteDisk (correct : Bool) (starts : world.disk = suiteDisk text)
    (licensed : hasLicense (encode text) = true) :
    (detouredInspection.licenses correct world).2.disk = suiteDisk text := by
  have still (path : String) :
      examineLicense {} detouredLayout correct (suiteAt path) world = (.fine, world) := by
    have read : contentAt world.disk (suiteAt path).location = .ok (encode text) := by
      rw [starts]
      exact contentAt_of_aspect? (aspect?_suiteDisk text path)
    simp only [examineLicense, read, licensed, ↓reduceIte, ite_self]
  rw [Inspection.licenses_eq]
  change (examineKinds (examineLicense {} detouredLayout correct) detouredLayout (fun _ => id)
    SourceKind.all world).2.disk = _
  rw [examineKinds_suiteDisk starts (by rw [still]; exact starts)]
  simp only [still, starts]

/-- The formatter has the same text for the suite by both paths, and stores it by one. -/
private theorem examineFormat_suiteDisk (path : String) (correct : Bool)
    (known : path ∈ [straightPath, roundPath]) (starts : world.disk = suiteDisk text)
    (licensed : hasLicense (encode text) = true) :
    let result := examineFormat {} detouredLayout detourFormatter correct (suiteAt path) world
    result.1 =
        (if text = tidyText then .fine else .violation (correct && Text.contains ".." path)) ∧
      result.2.disk =
        suiteDisk (if correct && Text.contains ".." path then tidyText else text) := by
  intro result
  have checked : unformatted detouredLayout (suiteAt path) = false := by
    simp only [List.mem_cons, List.not_mem_nil, or_false] at known
    rcases known with rfl | rfl
    · decide
    · decide
  have asked : detourFormatter.reformat (suiteAt path) world = (.ok tidyText, world) := by
    have read : world.disk.read (suiteAt path).path = .ok (encode text) := by
      rw [starts]
      exact Disk.read_of_open? (open?_suiteDisk text known)
    simp only [detourFormatter, read, licensed, ↓reduceIte]
  have otherwise : readsOtherwise detouredLayout (suiteAt path) (encode text) (some tidyText) =
      (text != tidyText) := by
    simp [readsOtherwise, checked]
  have present : world.disk.tree.aspect? (suiteAt path).location = some (.file (encode text)) := by
    rw [starts]
    exact aspect?_suiteDisk text path
  have answers : (detourFormatter.reformat (suiteAt path) world).1.toOption = some tidyText := by
    rw [asked]
    rfl
  have turn := examineFormat_turn {} detouredLayout correct present answers (by rw [asked])
  have made : examineFormat {} detouredLayout detourFormatter correct (suiteAt path) world =
      result := rfl
  rw [starts, made] at turn
  generalize result.1 = outcome at turn ⊢
  generalize result.2.disk = after at turn ⊢
  cases turn with
  | fine calm =>
      obtain rfl : text = tidyText := by simpa using otherwise.symm.trans calm
      simp
  | told calm differs =>
      have differs : text ≠ tidyText := by simpa using otherwise.symm.trans differs
      simp [calm, differs]
  | @tried _ between allowed differs _ same =>
      have differs : text ≠ tidyText := by simpa using otherwise.symm.trans differs
      have write : between.disk.write (suiteAt path).path (encode tidyText) =
          .ok (suiteDisk tidyText) := by
        rw [same]
        exact Disk.write_of_open? (open?_suiteDisk text known) (encode tidyText)
      have applied : detourFormatter.apply (suiteAt path) between =
          if Text.contains ".." path then (.ok (), { between with disk := suiteDisk tidyText })
          else (.error "no detour", between) := by
        simp only [detourFormatter, write]
        rfl
      by_cases detour : Text.contains ".." path = true
      · simp [applied, allowed, differs, detour, Except.isOk, Except.toBool]
      · simp [applied, allowed, differs, detour, Except.isOk, Except.toBool, same]

/-- The untidy suite is a violation by both paths, and corrected by one. -/
private theorem formatOutcomes_untidy (starts : world.disk = suiteDisk untidyText) :
    (detouredInspection.formatOutcomes true world).1 = [.violation false, .violation true] ∧
      (detouredInspection.formatOutcomes true world).2.disk = suiteDisk tidyText := by
  have differs : untidyText ≠ tidyText := by decide
  have straight : Text.contains ".." straightPath = false := by decide
  have round : Text.contains ".." roundPath = true := by decide
  obtain ⟨first, between⟩ :=
    examineFormat_suiteDisk straightPath true (by simp) starts hasLicense_untidyText
  rw [straight] at first between
  obtain ⟨second, after⟩ :=
    examineFormat_suiteDisk roundPath true (by simp) between hasLicense_untidyText
  rw [round] at second after
  have visited : detouredInspection.formatOutcomes true world =
      examineKinds (examineFormat {} detouredLayout detourFormatter true) detouredLayout
        (fun _ => id) SourceKind.all world := rfl
  rw [visited, examineKinds_suiteDisk starts between]
  refine ⟨?_, by simpa using after⟩
  simp [first, second, differs]

/-- The tidy suite is none. -/
private theorem formatOutcomes_tidy (starts : world.disk = suiteDisk tidyText) :
    (detouredInspection.formatOutcomes false world).1 = [.fine, .fine] := by
  obtain ⟨first, between⟩ :=
    examineFormat_suiteDisk straightPath false (by simp) starts hasLicense_tidyText
  obtain ⟨second, -⟩ :=
    examineFormat_suiteDisk roundPath false (by simp) between hasLicense_tidyText
  have visited : detouredInspection.formatOutcomes false world =
      examineKinds (examineFormat {} detouredLayout detourFormatter false) detouredLayout
        (fun _ => id) SourceKind.all world := rfl
  rw [visited, examineKinds_suiteDisk starts between]
  simp [first, second]

end Suite

/-- **Without coherence a run may leave less than it reports**: the suite is refused by one of its
paths, then rewritten by the other. Of two violations one is corrected, and the next run finds
none. -/
theorem correction_leaves_less_by_detour :
    let first := detouredInspection.run true untidySuite
    let second := detouredInspection.run false first.2
    untidySuite.disk.tree.Plain ∧ detouredInspection.linter = none ∧
      (∀ walk, (detouredInspection.listing walk).Faithful) ∧
      detourRule.Governs detourFormatter detouredLayout untidySuite.disk ∧ detourRule.Stable ∧
      detourRule.KeepsLicense ∧
      ∃ format format', first.1.get? "format" = some format ∧ format.violations = 2 ∧
        format.corrected = 1 ∧ second.1.get? "format" = some format' ∧
        format'.violations = 0 := by
  intro first second
  have plain : untidySuite.disk.tree.Plain := by decide
  obtain ⟨one, two, three, starts, paired, licensed, ended, -, -, format⟩ :=
    detouredInspection.exists_stages rfl true untidySuite
  have atTwo : two.disk = suiteDisk untidyText := paired.trans (pairing_suiteDisk true starts)
  have atThree : three.disk = suiteDisk untidyText :=
    licensed.trans (licenses_suiteDisk true atTwo hasLicense_untidyText)
  obtain ⟨found, left⟩ := formatOutcomes_untidy atThree
  rw [Inspection.formats_eq _ rfl] at ended format
  rw [found] at format
  obtain ⟨one', two', three', starts', paired', licensed', -, -, -, format'⟩ :=
    detouredInspection.exists_stages rfl false first.2
  have atOne' : one'.disk = suiteDisk tidyText := starts'.trans (ended.trans left)
  have atTwo' : two'.disk = suiteDisk tidyText := paired'.trans (pairing_suiteDisk false atOne')
  have atThree' : three'.disk = suiteDisk tidyText :=
    licensed'.trans (licenses_suiteDisk false atTwo' hasLicense_tidyText)
  rw [Inspection.formats_eq _ rfl, formatOutcomes_tidy atThree'] at format'
  exact ⟨plain, rfl, fun _ tree => Tree.Reordered.refl tree, detourRule_governs fun _ => rfl,
    detourRule_stable, detourRule_keepsLicense, _, _, format, rfl, rfl, format', rfl⟩

end BuildWarden.Guideline
