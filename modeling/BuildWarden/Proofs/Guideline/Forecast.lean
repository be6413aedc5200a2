import BuildWarden.Proofs.Guideline.Order
import BuildWarden.Proofs.Guideline.Sources
import BuildWarden.Proofs.Tree.Target
/-!
# What is reported is what gets corrected

A run that only reports tells what a correcting run on the same tree does. Pairing adds files before
licences are looked at, but these files are licensed and change no other one; and where the library
and the test suites lie apart, no source is visited twice.
-/

namespace BuildWarden

/-- Neither the library nor the test suites lie in the other one. -/
def Layout.Separate (layout : Layout) (here : Location) : Prop :=
  ¬Path.target here layout.libraryDir <+: Path.target here layout.testunitsDir ∧
    ¬Path.target here layout.testunitsDir <+: Path.target here layout.libraryDir

/-- Without links, a path leads to its target. -/
theorem Layout.Separate.apartOn {layout : Layout} {disk : Disk} (plain : disk.tree.Plain)
    (separate : layout.Separate disk.here) : layout.ApartOn disk := by
  intro place item other item' leads leadsToo
  rw [Disk.target_of_locate plain (Disk.open?_eq_ok.mp leads),
    Disk.target_of_locate plain (Disk.open?_eq_ok.mp leadsToo)]
  exact separate

namespace Guideline

open Text.Utf8 (encode)

/-! ### Sources are visited once -/

/-- **No source is listed twice** where the library and the test suites lie apart. -/
theorem nodup_librarySources {layout : Layout} {listing : SourceKind → Listing} {disk : Disk}
    (plain : disk.tree.Plain) (faithful : ∀ kind, (listing kind).Faithful)
    (separate : layout.Separate disk.here) :
    ((librarySources layout listing disk).map SourceFile.location).Nodup :=
  nodup_sources plain faithful (separate.apartOn plain)

/-! ### What is flagged -/

/-- The visits that flag something, if what becomes of each source is known. -/
theorem flagged_iff {visits : List Visit} {files : List SourceFile}
    {outcome : SourceFile → Outcome} {found : SourceFile → Bool}
    (told : visits.map Visit.verdict = files.map fun file => (file, outcome file))
    (means : ∀ file, outcome file ≠ .fine ↔ found file = true) :
    (∀ file, (∃ visit ∈ visits, visit.outcome ≠ .fine ∧ visit.file = file) ↔
        file ∈ files ∧ found file = true) ∧
      (visits.map Visit.outcome).countP (· != .fine) = files.countP found := by
  constructor
  · intro file
    constructor
    · rintro ⟨visit, member, flagged, rfl⟩
      have listed : visit.verdict ∈ files.map fun file => (file, outcome file) := by
        rw [← told]
        exact List.mem_map_of_mem member
      obtain ⟨file, known, same⟩ := List.mem_map.mp listed
      obtain ⟨rfl, became⟩ := Prod.mk.inj same
      refine ⟨known, (means _).mp ?_⟩
      rwa [became]
    · rintro ⟨member, finds⟩
      have listed : (file, outcome file) ∈ visits.map Visit.verdict := by
        rw [told]
        exact List.mem_map_of_mem (f := fun file => (file, outcome file)) member
      obtain ⟨visit, known, same⟩ := List.mem_map.mp listed
      obtain ⟨rfl, became⟩ := Prod.mk.inj same
      refine ⟨visit, known, ?_, rfl⟩
      rw [became]
      exact (means _).mpr finds
  · have outcomes : visits.map Visit.outcome = files.map outcome := by
      have second := congrArg (List.map Prod.snd) told
      rwa [List.map_map, List.map_map] at second
    rw [outcomes, List.countP_map]
    refine List.countP_congr fun file _ => ?_
    rw [← means file]
    simp

private theorem flagged_at {visits : List Visit} {known : SourceFile → Prop}
    (flags : ∀ file, (∃ visit ∈ visits, visit.outcome ≠ .fine ∧ visit.file = file) ↔ known file)
    (site : SourceFile → Location) (location : Location) :
    (∃ visit ∈ visits, visit.outcome ≠ .fine ∧ site visit.file = location) ↔
      ∃ file, known file ∧ site file = location := by
  constructor
  · rintro ⟨visit, member, flagged, place⟩
    exact ⟨visit.file, (flags _).mp ⟨visit, member, flagged, rfl⟩, place⟩
  · rintro ⟨file, knows, place⟩
    obtain ⟨visit, member, flagged, rfl⟩ := (flags file).mpr knows
    exact ⟨visit, member, flagged, place⟩

/-- Two lists without repetitions in which the same is found count the same. -/
theorem countP_eq_of_found {files others : List SourceFile} {one two : SourceFile → Bool}
    (once : files.Nodup) (onceToo : others.Nodup)
    (same : ∀ file, file ∈ files ∧ one file = true ↔ file ∈ others ∧ two file = true) :
    files.countP one = others.countP two := by
  have found : (files.filter one).Perm (others.filter two) := by
    refine (List.perm_ext_iff_of_nodup (once.filter _) (onceToo.filter _)).mpr fun file => ?_
    rw [List.mem_filter, List.mem_filter]
    exact same file
  rw [List.countP_eq_length_filter, List.countP_eq_length_filter, found.length_eq]

/-- Whether a header needs a unit and has none on a disk. -/
def lacksUnit (layout : Layout) (disk : Disk) (header : SourceFile) : Bool :=
  needsUnit layout header && disk.tree.outline? (unitPlace header) != some .file

/-- Whether the licence check finds a source on a disk. -/
def lacksLicense (layout : Layout) (disk : Disk) (file : SourceFile) : Bool :=
  (licensing disk.locked).finds (unlicensed layout) file disk

private theorem lacksLicense_iff {layout : Layout} {disk : Disk} {file : SourceFile} :
    lacksLicense layout disk file = true ↔ unlicensed layout file = false ∧ ∃ content,
      disk.tree.aspect? file.location = some (.file content) ∧ hasLicense content = false := by
  unfold lacksLicense Amendment.finds
  rcases disk.tree.aspect? file.location with _ | (content | target | _)
  · simp
  · simp [licensing]
  · simp
  · simp

private theorem pairingTreatment_flags (layout : Layout) (locked : Location → Bool) (correct : Bool)
    (disk : Disk) (header : SourceFile) :
    (pairingTreatment layout locked correct).outcome header
        (disk.tree.aspect? (unitPlace header)) ≠ .fine ↔ lacksUnit layout disk header = true := by
  unfold pairingTreatment lacksUnit Tree.outline?
  by_cases needed : needsUnit layout header = true
  · simp only [needed, ↓reduceIte]
    rcases disk.tree.aspect? (unitPlace header) with _ | (_ | _ | _)
    · simp
    · simp [Aspect.outline]
    · simp [Aspect.outline]
    · simp [Aspect.outline]
  · simp [needed]

private theorem licenseHandling_flags (layout : Layout) (correct : Bool) (disk : Disk)
    (file : SourceFile) :
    ((licenseHandling layout disk.locked).treatment correct).outcome file
        (disk.tree.aspect? file.location) ≠ .fine ↔ lacksLicense layout disk file = true := by
  unfold Handling.treatment licenseHandling Amendment.handling lacksLicense Amendment.finds
  rcases disk.tree.aspect? file.location with _ | (content | _ | _)
  · simp
  · simp
  · simp
  · simp

/-- A source gets the licence if it is flagged and can be written. -/
theorem licenseHandling_leaves {layout : Layout} {disk : Disk} {file : SourceFile} {content : Bytes}
    (present : disk.tree.aspect? file.location = some (.file content)) :
    ((licenseHandling layout disk.locked).treatment true).leaves file (some (.file content)) =
      some (.file (if lacksLicense layout disk file && !disk.locked file.location
        then withLicense content else content)) := by
  have flags : (licenseHandling layout disk.locked).flags file content =
      lacksLicense layout disk file := by
    simp only [licenseHandling, Amendment.handling, lacksLicense, Amendment.finds, present]
  have leaves : (licenseHandling layout disk.locked).leaves file content =
      ((licensing disk.locked).mend? file.location content).getD content := rfl
  by_cases shut : disk.locked file.location = true
  · have refused : (licensing disk.locked).mend? file.location content = none := if_pos shut
    rw [Handling.treatment_leaves, flags, leaves, refused, shut, Option.getD_none, ite_self,
      Bool.not_true, Bool.and_false, if_neg Bool.false_ne_true]
  · have written : (licensing disk.locked).mend? file.location content =
        some (withLicense content) := if_neg shut
    rw [Handling.treatment_leaves, flags, leaves, written, Bool.eq_false_iff.mpr shut,
      Option.getD_some, Bool.not_false, Bool.and_true, Bool.true_and]

/-! ### What is corrected -/

namespace Inspection
variable {inspection : Inspection} {again : Walk → Listing} {world next : World}
  (faithful : ∀ walk, (inspection.listing walk).Faithful) (plain : world.disk.tree.Plain)
include faithful plain

section Pairing
variable (named : world.disk.NoBareHeader)
include named

/-- What a pairing check makes of the headers, and what it leaves at the places of their units. -/
theorem pairing_verdicts (correct : Bool) :
    (inspection.pairingVisits correct world).map Visit.verdict =
        ((SourceKind.headers.sources inspection.layout (inspection.listing .pairing)
          world.disk).map fun header =>
            (header, (pairingTreatment inspection.layout world.disk.locked correct).outcome header
              (world.disk.tree.aspect? (unitPlace header)))) ∧
      (∀ header ∈ SourceKind.headers.sources inspection.layout (inspection.listing .pairing)
          world.disk,
        (inspection.pairing correct world).2.disk.tree.aspect? (unitPlace header) =
          (pairingTreatment inspection.layout world.disk.locked correct).leaves header
            (world.disk.tree.aspect? (unitPlace header))) := by
  have governs :=
    examinePairing_governed inspection.settings inspection.layout world.disk.locked correct
  rw [pairing_eq]
  dsimp only [pairingOutcomes, examineHeaders, pairingVisits]
  refine Treatment.verdicts_examineAll governs rfl plain ?_
    (nodup_units plain (faithful .pairing) named)
  intro header member
  exact Amendment.isLibrarySource_of_mem plain (faithful .pairing) member

private theorem pairing_flags (correct : Bool) :
    (∀ header, (∃ visit ∈ inspection.pairingVisits correct world,
        visit.outcome ≠ .fine ∧ visit.file = header) ↔
        header ∈ SourceKind.headers.sources inspection.layout (inspection.listing .pairing)
            world.disk ∧ lacksUnit inspection.layout world.disk header = true) ∧
      (inspection.pairing correct world).1.violations =
        (SourceKind.headers.sources inspection.layout (inspection.listing .pairing)
          world.disk).countP (lacksUnit inspection.layout world.disk) := by
  obtain ⟨told, -⟩ := pairing_verdicts faithful plain named correct
  obtain ⟨flagged, counted⟩ := flagged_iff told
    (pairingTreatment_flags inspection.layout world.disk.locked correct world.disk)
  refine ⟨flagged, ?_⟩
  rw [pairing_counts, (CheckResult.count_fresh rfl rfl _).1]
  exact counted

/-- **A pairing check makes the units that are missing and can be written.** -/
theorem creates_pairing (location : Location) :
    world.disk.Creates (inspection.pairing true world).2.disk location ↔
      (∃ header, (header ∈ SourceKind.headers.sources inspection.layout
          (inspection.listing .pairing) world.disk ∧
            lacksUnit inspection.layout world.disk header = true) ∧ unitPlace header = location) ∧
        world.disk.Writable location := by
  obtain ⟨-, left⟩ := pairing_verdicts faithful plain named true
  constructor
  · rintro ⟨vacant, content, made⟩
    have alters := pairing_alters faithful plain true
    by_cases touched : true = true ∧ world.disk.tree.outline? location = none ∧
        ∃ header ∈ SourceKind.headers.sources inspection.layout (inspection.listing .pairing)
          world.disk, needsUnit inspection.layout header = true ∧ unitPlace header = location
    · obtain ⟨-, nothing, header, member, needed, rfl⟩ := touched
      have leaves := left header member
      rw [made, vacant] at leaves
      have unlocked : world.disk.locked (unitPlace header) = false := by
        by_contra shut
        simp [pairingTreatment, shut] at leaves
      refine ⟨⟨header, ⟨member, ?_⟩, rfl⟩, unlocked, by simp [vacant]⟩
      simp [lacksUnit, needed, nothing]
    · rw [alters.elsewhere location touched, vacant] at made
      cases made
  -- a unit that is missing where no directory is has nothing at its place: links are excluded
  · rintro ⟨⟨header, ⟨member, lacking⟩, rfl⟩, unlocked, noDir⟩
    obtain ⟨needed, noFile⟩ : needsUnit inspection.layout header = true ∧
        world.disk.tree.outline? (unitPlace header) ≠ some .file := by
      simpa [lacksUnit] using lacking
    have vacant : world.disk.tree.aspect? (unitPlace header) = none := by
      rcases there : world.disk.tree.aspect? (unitPlace header) with _ | (content | target | _)
      · rfl
      · exact (noFile (Amendment.outline?_of_aspect? there)).elim
      · exact (Disk.aspect?_ne_link plain _ _ there).elim
      · exact (noDir there).elim
    have leaves := left header member
    rw [vacant] at leaves
    refine ⟨vacant, encode (unitText inspection.layout header), ?_⟩
    simpa [pairingTreatment, needed, unlocked] using leaves

/-- What pairing leaves: nothing that stood is changed, and new files are licensed. -/
theorem pairing_leaves (correct : Bool) (location : Location) :
    (inspection.pairing correct world).2.disk.tree.aspect? location =
        world.disk.tree.aspect? location ∨
      world.disk.tree.aspect? location = none ∧ ∃ content,
        (inspection.pairing correct world).2.disk.tree.aspect? location = some (.file content) ∧
          hasLicense content = true := by
  obtain ⟨-, left⟩ := pairing_verdicts faithful plain named correct
  have alters := pairing_alters faithful plain correct
  by_cases touched : correct = true ∧ world.disk.tree.outline? location = none ∧
      ∃ header ∈ SourceKind.headers.sources inspection.layout (inspection.listing .pairing)
        world.disk, needsUnit inspection.layout header = true ∧ unitPlace header = location
  · obtain ⟨-, nothing, header, member, needed, rfl⟩ := touched
    have vacant : world.disk.tree.aspect? (unitPlace header) = none := by
      simpa [Tree.outline?] using nothing
    rw [left header member, vacant]
    unfold pairingTreatment
    dsimp only
    split
    · exact .inr ⟨rfl, _, rfl, hasLicense_unitFor _⟩
    · exact .inl rfl
  · exact .inl (alters.elsewhere location touched)

/-- A source that the licence check flags after pairing was flagged before, and stays so. -/
theorem lacksLicense_paired (correct : Bool) {listing listingToo : SourceKind → Listing}
    (listed : ∀ kind, (listing kind).Faithful) (listedToo : ∀ kind, (listingToo kind).Faithful)
    (file : SourceFile) :
    file ∈ librarySources inspection.layout listing (inspection.pairing correct world).2.disk ∧
        lacksLicense inspection.layout (inspection.pairing correct world).2.disk file = true ↔
      file ∈ librarySources inspection.layout listingToo world.disk ∧
        lacksLicense inspection.layout world.disk file = true := by
  have alters := pairing_alters faithful plain correct
  have leaves := pairing_leaves faithful plain named correct file.location
  generalize (inspection.pairing correct world).2.disk = after at alters leaves ⊢
  have same (stays : after.tree.aspect? file.location = world.disk.tree.aspect? file.location) :
      lacksLicense inspection.layout after file =
        lacksLicense inspection.layout world.disk file := by
    unfold lacksLicense Amendment.finds
    rw [stays]
    rfl
  have listings (stays : after.tree.aspect? file.location = world.disk.tree.aspect? file.location) :
      file ∈ librarySources inspection.layout listing after ↔
        file ∈ librarySources inspection.layout listingToo world.disk := by
    refine mem_librarySources_iff alters plain listed listedToo ?_
    unfold Tree.outline?
    rw [stays]
  constructor
  · rintro ⟨member, lacking⟩
    obtain ⟨-, content, there, unlicensed⟩ := lacksLicense_iff.mp lacking
    -- a unit that pairing has made names its licence, so it is not what is flagged
    rcases leaves with stays | ⟨-, content', made, licensed⟩
    · exact ⟨(listings stays).mp member, (same stays).symm.trans lacking⟩
    · rw [there] at made
      cases made
      rw [unlicensed] at licensed
      cases licensed
  · rintro ⟨member, lacking⟩
    obtain ⟨-, content, there, unlicensed⟩ := lacksLicense_iff.mp lacking
    rcases leaves with stays | ⟨vacant, -⟩
    · exact ⟨(listings stays).mpr member, (same stays).trans lacking⟩
    · rw [there] at vacant
      cases vacant

end Pairing

section License
variable (separate : inspection.layout.Separate world.disk.here)
include separate

private theorem licenses_flags (correct : Bool) :
    (∀ file, (∃ visit ∈ inspection.licenseVisits correct world,
        visit.outcome ≠ .fine ∧ visit.file = file) ↔
        file ∈ librarySources inspection.layout (fun kind => inspection.listing (.license kind))
            world.disk ∧ lacksLicense inspection.layout world.disk file = true) ∧
      (inspection.licenses correct world).1.violations =
        (librarySources inspection.layout (fun kind => inspection.listing (.license kind))
          world.disk).countP (lacksLicense inspection.layout world.disk) := by
  have governs :=
    examineLicense_governed inspection.settings inspection.layout world.disk.locked correct
  have once := nodup_librarySources plain (fun kind => faithful (.license kind)) separate
  obtain ⟨files, same, told, -, -⟩ := Treatment.exists_verdicts governs
    (fun kind => faithful (.license kind)) rfl plain once
  obtain ⟨flagged, counted⟩ := flagged_iff told
    (licenseHandling_flags inspection.layout correct world.disk)
  refine ⟨fun file => (flagged file).trans (and_congr_left fun _ => same.mem_iff), ?_⟩
  rw [licenses_counts, (CheckResult.count_fresh rfl rfl _).1]
  exact counted.trans (same.countP_eq _)

/-- **A licence check rewrites what it flags and can be written.** -/
theorem rewrites_licenses (location : Location) :
    world.disk.Rewrites (inspection.licenses true world).2.disk location ↔
      (∃ file, (file ∈ librarySources inspection.layout
          (fun kind => inspection.listing (.license kind)) world.disk ∧
            lacksLicense inspection.layout world.disk file = true) ∧ file.location = location) ∧
        world.disk.locked location = false := by
  have governs :=
    examineLicense_governed inspection.settings inspection.layout world.disk.locked true
  have once := nodup_librarySources plain (fun kind => faithful (.license kind)) separate
  obtain ⟨files, same, -, left, alters⟩ := Treatment.exists_verdicts governs
    (fun kind => faithful (.license kind)) rfl plain once
  rw [licenses_eq]
  dsimp only [licenseOutcomes]
  constructor
  · rintro ⟨old, new, before, after, different⟩
    by_cases touched : ∃ file ∈ files, file.location = location
    · obtain ⟨file, member, rfl⟩ := touched
      have leaves := left file member
      rw [after, before, licenseHandling_leaves before] at leaves
      by_cases gets : (lacksLicense inspection.layout world.disk file &&
          !world.disk.locked file.location) = true
      · obtain ⟨lacking, unlocked⟩ := Bool.and_eq_true_iff.mp gets
        exact ⟨⟨file, ⟨same.mem_iff.mp member, lacking⟩, rfl⟩, by simpa using unlocked⟩
      · rw [if_neg gets] at leaves
        cases leaves
        exact (different rfl).elim
    · rw [alters.elsewhere location touched, before] at after
      cases after
      exact (different rfl).elim
  · rintro ⟨⟨file, ⟨member, lacking⟩, rfl⟩, unlocked⟩
    obtain ⟨-, content, there, unlicensed⟩ := lacksLicense_iff.mp lacking
    have leaves := left file (same.mem_iff.mpr member)
    rw [there, licenseHandling_leaves there, lacking, unlocked] at leaves
    refine ⟨content, withLicense content, there, leaves, fun unchanged => ?_⟩
    have licensed := hasLicense_withLicense content
    rw [unchanged, unlicensed] at licensed
    cases licensed

end License

/-! ### The run that reports and the run that corrects -/

/-- **What is reported is what gets corrected.** On the same tree, in whatever order directories are
listed, a run that reports and one that corrects count the same violations of pairing and licences.
The units that the second one makes are those of the headers that the first one flags, and the
sources that get their licence are those that the first one flags, wherever that can be written. -/
theorem report_foretells (faithfulAgain : ∀ walk, (again walk).Faithful)
    (named : world.disk.NoBareHeader) (separate : inspection.layout.Separate world.disk.here) :
    let told := inspection.relisted again
    (∀ name ∈ ["cpp_pairing", "license"], ∃ first second,
      (told.run false world).1.get? name = some first ∧
        (inspection.run true world).1.get? name = some second ∧
        second.violations = first.violations) ∧
      (∀ location, world.disk.Creates (inspection.stage true world 1).disk location ↔
        (∃ visit ∈ told.pairingVisits false (told.stage false world 0),
          visit.outcome ≠ .fine ∧ unitPlace visit.file = location) ∧
          world.disk.Writable location) ∧
      ∀ location,
        (inspection.stage true world 1).disk.Rewrites (inspection.stage true world 2).disk
            location ↔
          (∃ visit ∈ told.licenseVisits false (told.stage false world 1),
            visit.outcome ≠ .fine ∧ visit.file.location = location) ∧
            world.disk.Writable location := by
  intro told
  have faithfulTold : ∀ walk, (told.listing walk).Faithful := faithfulAgain
  have starts := inspection.stage_zero_disk true world
  have startsTold := told.stage_zero_disk false world
  have plainZero : (inspection.stage true world 0).disk.tree.Plain := by rwa [starts]
  have namedZero : (inspection.stage true world 0).disk.NoBareHeader := by rwa [starts]
  have plainTold : (told.stage false world 0).disk.tree.Plain := by rwa [startsTold]
  have namedTold : (told.stage false world 0).disk.NoBareHeader := by rwa [startsTold]
  have paired := inspection.stage_one_disk true world
  have pairedTold := told.stage_one_disk false world
  have alters := stage_one_alters faithful plain true
  have altersTold := stage_one_alters faithfulTold plain false
  -- both runs flag the same headers of the tree at the start
  obtain ⟨flagsTold, countsTold⟩ := pairing_flags faithfulTold plainTold namedTold false
  obtain ⟨-, counts⟩ := pairing_flags faithful plainZero namedZero true
  rw [startsTold] at flagsTold countsTold
  rw [starts] at counts
  have headers : (SourceKind.headers.sources inspection.layout (inspection.listing .pairing)
      world.disk).Perm (SourceKind.headers.sources inspection.layout (again .pairing) world.disk) :=
    (Disk.Refills.refl world.disk).enumerate_perm plain plain (faithful .pairing)
      (faithfulAgain .pairing) fun _ none => none.elim
  -- and the same sources, wherever they are listed
  have found (listing : SourceKind → Listing) (listed : ∀ kind, (listing kind).Faithful) :=
    lacksLicense_paired faithful plainZero namedZero true listed
      (fun kind => faithful (.license kind))
  have foundTold (listing : SourceKind → Listing) (listed : ∀ kind, (listing kind).Faithful) :=
    lacksLicense_paired faithfulTold plainTold namedTold false listed
      (fun kind => faithful (.license kind))
  simp only [← paired, starts] at found
  simp only [← pairedTold, startsTold] at foundTold
  have same (file : SourceFile) :=
    (found (fun kind => inspection.listing (.license kind)) (fun kind => faithful (.license kind))
      file).trans
    (foundTold (fun kind => again (.license kind)) (fun kind => faithfulAgain (.license kind))
      file).symm
  have separateOne : inspection.layout.Separate (inspection.stage true world 1).disk.here := by
    rw [alters.here]
    exact separate
  have separateTold : told.layout.Separate (told.stage false world 1).disk.here := by
    rw [altersTold.here]
    exact separate
  obtain ⟨licenseFlagsTold, licenseCountsTold⟩ := licenses_flags faithfulTold
    (altersTold.plain plain) separateTold false
  obtain ⟨-, licenseCounts⟩ := licenses_flags faithful (alters.plain plain) separateOne true
  refine ⟨?_, fun location => ?_, fun location => ?_⟩
  · intro name member
    simp only [List.mem_cons, List.not_mem_nil, or_false] at member
    rcases member with rfl | rfl
    · refine ⟨_, _, run_get?_pairing .., run_get?_pairing .., ?_⟩
      rw [counts, countsTold]
      exact headers.countP_eq _
    · refine ⟨_, _, run_get?_license .., run_get?_license .., ?_⟩
      rw [licenseCounts, licenseCountsTold]
      exact countP_eq_of_found
        (nodup_librarySources (alters.plain plain) (fun kind => faithful (.license kind))
          separateOne).of_map
        (nodup_librarySources (altersTold.plain plain) (fun kind => faithfulAgain (.license kind))
          separateTold).of_map same
  · have creates := creates_pairing faithful plainZero namedZero location
    rw [← paired, starts] at creates
    rw [creates, flagged_at flagsTold unitPlace location]
    refine and_congr_left fun _ => exists_congr fun header => and_congr_left fun _ => ?_
    exact and_congr_left fun _ => headers.mem_iff
  · have rewrites := rewrites_licenses faithful (alters.plain plain) separateOne location
    rw [← stage_two_disk, alters.locked] at rewrites
    rw [rewrites, flagged_at licenseFlagsTold SourceFile.location location]
    constructor
    · rintro ⟨⟨file, flagged, rfl⟩, unlocked⟩
      refine ⟨⟨file, (same file).mp flagged, rfl⟩, unlocked, ?_⟩
      obtain ⟨-, content, present, -⟩ := lacksLicense_iff.mp ((found _
        (fun kind => faithful (.license kind)) file).mp flagged).2
      rw [present]
      simp
    · rintro ⟨⟨file, flagged, place⟩, unlocked, -⟩
      exact ⟨⟨file, (same file).mpr flagged, place⟩, unlocked⟩

end Inspection

/-- Of two headers, the one whose unit is locked gets none in either run. -/
theorem report_foretells_two_headers :
    let told := usualInspection.relisted fun _ => swapFront
    twoHeaders.disk.tree.Plain ∧ twoHeaders.disk.NoBareHeader ∧
      usualInspection.layout.Separate twoHeaders.disk.here ∧
      (∃ first second, (told.run false twoHeaders).1.get? "license" = some first ∧
        (usualInspection.run true twoHeaders).1.get? "license" = some second ∧
        second.violations = first.violations) ∧
      ¬twoHeaders.disk.Creates (usualInspection.stage true twoHeaders 1).disk
        ["src", "agrum", "b.cpp"] := by
  intro told
  have plain : twoHeaders.disk.tree.Plain := by decide
  have named : twoHeaders.disk.NoBareHeader := Disk.noBareHeader_of_files plain (by decide)
  have separate : usualInspection.layout.Separate twoHeaders.disk.here := by
    unfold Layout.Separate
    decide
  obtain ⟨counts, creates, -⟩ :=
    Inspection.report_foretells (usualInspection_regular plain named).faithful plain
      (fun _ => swapFront_faithful) named separate
  refine ⟨plain, named, separate, counts "license" (by decide), fun made => ?_⟩
  have writable := ((creates _).mp made).2
  exact absurd writable.1 (by decide)

end Guideline
end BuildWarden
