import BuildWarden.Proofs.Guideline.Forecast
import BuildWarden.Proofs.Tree.Listed
import Mathlib.Data.Set.Card
/-!
# How often a source is counted

The licence check lists three kinds of sources one after the other. Source units are of one kind
only, but a test suite is a header as well: where the test suites lie in the library, or the library
lies among the test suites, a suite is listed twice. A check that does not correct then counts and
announces it twice, and it counts every other source once.
-/

namespace BuildWarden.Guideline

variable {layout : Layout} {listing : SourceKind → Listing} {kind : SourceKind} {world : World}
  {disk : Disk}
  {files : List SourceFile} {file : SourceFile} {location : Location} {allowed : Leaf → Prop}

/-! ### What is announced -/

/-- What is said of a source that lacks its licence. -/
def licenseNotice (layout : Layout) (file : SourceFile) : Console.Message :=
  .notice ("[" ++ shownName layout file ++ "]" ++ " has no LGPL copyright in its first lines")

/-- What becomes of a source that is only looked at. -/
def licenseOutcome (layout : Layout) (disk : Disk) (file : SourceFile) : Outcome :=
  if lacksLicense layout disk file then .violation false else .fine

/-- The messages on the sources that lack their licence. -/
def licenseNotices (layout : Layout) (disk : Disk) (files : List SourceFile) :
    List Console.Message :=
  (files.filter (lacksLicense layout disk)).map (licenseNotice layout)

private theorem licenseNotices_append (layout : Layout) (disk : Disk)
    (front back : List SourceFile) :
    licenseNotices layout disk (front ++ back) =
      licenseNotices layout disk front ++ licenseNotices layout disk back := by
  rw [licenseNotices, List.filter_append, List.map_append]
  rfl

/-- An examination that does not correct announces a source that lacks its licence. -/
theorem examineLicense_announces (settings : Console.Settings) (layout : Layout) {content : Bytes}
    (present : world.disk.tree.aspect? file.location = some (.file content)) :
    examineLicense settings layout false file world =
      (licenseOutcome layout world.disk file,
        world.sayAll settings (licenseNotices layout world.disk [file])) := by
  have lacks : lacksLicense layout world.disk file =
      (!isExcepted (shownName layout file) licenseExceptions && !hasLicense content) := by
    simp [lacksLicense, Amendment.finds, present, licensing, unlicensed]
  unfold examineLicense licenseOutcome licenseNotices
  dsimp only
  rw [contentAt_of_aspect? present, List.filter_singleton, lacks]
  by_cases excepted : isExcepted (shownName layout file) licenseExceptions = true
  · simp [excepted, World.sayAll]
  · by_cases licensed : hasLicense content = true
    · simp [excepted, licensed, World.sayAll]
    · simp [excepted, licensed, World.sayAll, licenseNotice]

private theorem examineAll_announces (settings : Console.Settings) (layout : Layout) (world : World)
    (present : ∀ file ∈ files, ∃ content,
      world.disk.tree.aspect? file.location = some (.file content)) :
    examineAll (examineLicense settings layout false) files world =
      (files.map (licenseOutcome layout world.disk),
        world.sayAll settings (licenseNotices layout world.disk files)) := by
  induction files generalizing world with
  | nil => rfl
  | cons file rest ih =>
      obtain ⟨content, here⟩ := present file (by simp)
      have later := ih (world.sayAll settings (licenseNotices layout world.disk [file]))
        (by simpa using fun other member => present other (by simp [member]))
      rw [World.sayAll_disk, ← World.sayAll_append] at later
      rw [examineAll_cons, examineLicense_announces settings layout here]
      dsimp only
      rw [later, ← licenseNotices_append, List.map_cons, List.singleton_append]

/-- A check that does not correct announces the sources that lack their licence, as they are
listed. -/
theorem examineKinds_announces (settings : Console.Settings) (layout : Layout) (world : World)
    (kinds : List SourceKind)
    (present : ∀ kind ∈ kinds, ∀ file ∈ kind.sources layout (listing kind) world.disk,
      ∃ content, world.disk.tree.aspect? file.location = some (.file content)) :
    let files := kinds.flatMap fun kind => kind.sources layout (listing kind) world.disk
    examineKinds (examineLicense settings layout false) layout listing kinds world =
      (files.map (licenseOutcome layout world.disk),
        world.sayAll settings (licenseNotices layout world.disk files)) := by
  intro files
  induction kinds generalizing world with
  | nil => rfl
  | cons kind rest ih =>
      have here := examineAll_announces settings layout world (present kind (by simp))
      have later := ih (world.sayAll settings (licenseNotices layout world.disk
        (kind.sources layout (listing kind) world.disk)))
        (by simpa using fun other member => present other (by simp [member]))
      simp only [World.sayAll_disk, ← World.sayAll_append] at later
      rw [examineKinds_cons, here]
      dsimp only
      rw [later, ← licenseNotices_append, ← List.map_append]
      simp only [files, List.flatMap_cons]

/-- What is announced is counted as violations that are not corrected. -/
theorem count_licenseOutcomes (result : CheckResult) (layout : Layout) (disk : Disk)
    (files : List SourceFile) :
    result.count (files.map (licenseOutcome layout disk)) =
      { result with
        violations := result.violations + (files.filter (lacksLicense layout disk)).length } :=
  result.count_found files (lacksLicense layout disk) false

/-! ### Where licences are missing -/

/-- The files of a kind that lack their licence. -/
def SourceKind.lacking (kind : SourceKind) (layout : Layout) (disk : Disk) : Set Location :=
  {location | ∃ file, disk.Lists (kind.start layout) file ∧ kind.pattern.accepts file.name = true ∧
    lacksLicense layout disk file = true ∧ file.location = location}

/-- The files that lack their licence, of whatever kind they are. -/
def lackingFiles (layout : Layout) (disk : Disk) : Set Location :=
  {location | ∃ kind : SourceKind, location ∈ kind.lacking layout disk}

/-- The test suites that lack their licence and are headers of the library as well. -/
def lackingTwice (layout : Layout) (disk : Disk) : Set Location :=
  SourceKind.headers.lacking layout disk ∩ SourceKind.suites.lacking layout disk

/-- The sources that a check of licences reports, in the order of its walks. -/
def reportedSources (layout : Layout) (listing : SourceKind → Listing) (disk : Disk) :
    List SourceFile :=
  (librarySources layout listing disk).filter (lacksLicense layout disk)

section Formed
variable (formed : disk.tree.Formed allowed) (faithful : ∀ kind, (listing kind).Faithful)
include formed faithful

private theorem exists_aspect?_of_mem_sources
    (member : file ∈ kind.sources layout (listing kind) disk) :
    ∃ content, disk.tree.aspect? file.location = some (.file content) := by
  obtain ⟨content, executable, stands⟩ :=
    ((Disk.mem_enumerate_iff formed (faithful kind)).mp member).1.present
  refine ⟨content, ?_⟩
  rw [Tree.aspect?, stands]
  rfl

private theorem mem_map_reported :
    location ∈ ((kind.sources layout (listing kind) disk).filter
        (lacksLicense layout disk)).map SourceFile.location ↔
      location ∈ kind.lacking layout disk := by
  simp only [List.mem_map, List.mem_filter, SourceKind.sources,
    Disk.mem_enumerate_iff formed (faithful kind), SourceKind.lacking, Set.mem_ofPred_eq, and_assoc]

/-- A kind of sources has as many reported ones as it has files that lack their licence. -/
theorem length_reported (kind : SourceKind) :
    (((kind.sources layout (listing kind) disk).filter (lacksLicense layout disk)).length : ℕ∞) =
      (kind.lacking layout disk).encard := by
  have once : (((kind.sources layout (listing kind) disk).filter
      (lacksLicense layout disk)).map SourceFile.location).Nodup :=
    (Disk.nodup_enumerate_locations formed (faithful kind)).sublist
      (List.filter_sublist.map SourceFile.location)
  have places : kind.lacking layout disk = ((((kind.sources layout (listing kind) disk).filter
      (lacksLicense layout disk)).map SourceFile.location).toFinset : Set Location) := by
    ext location
    rw [Finset.mem_coe, List.mem_toFinset, mem_map_reported formed faithful]
  rw [places, Set.encard_coe_eq_coe_finsetCard, List.toFinset_card_of_nodup once, List.length_map]

end Formed

/-- A test suite is a header. -/
theorem accepts_header_of_suite {name : String}
    (suite : SourceKind.suites.pattern.accepts name = true) :
    SourceKind.headers.pattern.accepts name = true := by
  have ended := (Pattern.accepts_endingIn "TestSuite.h" name).mp suite
  exact (Pattern.accepts_endingIn ".h" name).mpr (List.IsSuffix.trans (by decide) ended)

/-- A unit is of no other kind. -/
theorem not_mem_lacking_of_unit (unit : location ∈ SourceKind.units.lacking layout disk) :
    location ∉ SourceKind.headers.lacking layout disk ∪ SourceKind.suites.lacking layout disk := by
  obtain ⟨unit, -, accepted, -, rfl⟩ := unit
  have different {other : SourceFile} (same : other.location = unit.location)
      (headed : SourceKind.headers.pattern.accepts other.name = true) : False := by
    rw [SourceFile.name_of_location same] at headed
    exact not_unit_and_header accepted headed
  rintro (⟨header, -, headed, -, same⟩ | ⟨suite, -, suited, -, same⟩)
  · exact different same headed
  · exact different same (accepts_header_of_suite suited)

private theorem lackingFiles_eq (layout : Layout) (disk : Disk) :
    lackingFiles layout disk = SourceKind.units.lacking layout disk ∪
      (SourceKind.headers.lacking layout disk ∪ SourceKind.suites.lacking layout disk) := by
  ext location
  constructor
  · rintro ⟨_ | _ | _, lacks⟩
    · exact .inl lacks
    · exact .inr (.inl lacks)
    · exact .inr (.inr lacks)
  · rintro (lacks | lacks | lacks)
    · exact ⟨.units, lacks⟩
    · exact ⟨.headers, lacks⟩
    · exact ⟨.suites, lacks⟩

/-- Nothing is listed twice where the library and the test suites lie apart. -/
theorem lackingTwice_eq_empty (plain : disk.tree.Plain) (separate : layout.Separate disk.here) :
    lackingTwice layout disk = ∅ := by
  refine Set.eq_empty_iff_forall_notMem.mpr ?_
  rintro location ⟨⟨header, lists, -, -, rfl⟩, suite, listsToo, -, -, same⟩
  exact location_ne_of_apart (separate.apartOn plain) lists listsToo same.symm

section Formed
variable (formed : disk.tree.Formed allowed) (faithful : ∀ kind, (listing kind).Faithful)
include formed faithful

/-- What is reported are the files that lack their licence, and some of them once more. -/
theorem length_reportedSources :
    ((reportedSources layout listing disk).length : ℕ∞) =
      (lackingFiles layout disk).encard + (lackingTwice layout disk).encard := by
  have kinds : ((reportedSources layout listing disk).length : ℕ∞) =
      (SourceKind.units.lacking layout disk).encard +
        ((SourceKind.headers.lacking layout disk).encard +
          (SourceKind.suites.lacking layout disk).encard) := by
    simp only [← length_reported formed faithful, reportedSources, librarySources, SourceKind.all,
      List.flatMap_cons, List.flatMap_nil, List.append_nil, List.filter_append, List.length_append,
      Nat.cast_add]
  have apart := Set.encard_union_eq (Set.disjoint_left.mpr
    fun location (unit : location ∈ SourceKind.units.lacking layout disk) =>
      not_mem_lacking_of_unit unit)
  rw [kinds, lackingFiles_eq, apart, lackingTwice, add_assoc, Set.encard_union_add_encard_inter]

private theorem mem_map_reportedSources :
    location ∈ (reportedSources layout listing disk).map SourceFile.location ↔
      location ∈ lackingFiles layout disk := by
  rw [lackingFiles_eq]
  simp only [reportedSources, librarySources, SourceKind.all, List.flatMap_cons, List.flatMap_nil,
    List.append_nil, List.filter_append, List.map_append, List.mem_append,
    mem_map_reported formed faithful, Set.mem_union]

/-- A file is reported twice exactly if it is listed twice. -/
theorem length_reportedSources_eq_iff :
    ((reportedSources layout listing disk).length : ℕ∞) = (lackingFiles layout disk).encard ↔
      lackingTwice layout disk = ∅ := by
  have counts : ((reportedSources layout listing disk).length : ℕ∞) = _ :=
    length_reportedSources formed faithful
  have finite : (lackingFiles layout disk).encard ≠ ⊤ := by
    intro infinite
    rw [infinite, top_add] at counts
    exact ENat.natCast_ne_top _ counts
  rw [← Set.encard_eq_zero, counts]
  constructor
  · intro same
    exact ENat.add_right_injective_of_ne_top finite (same.trans (add_zero _).symm)
  · intro none
    rw [none, add_zero]

private theorem nodup_reportedSources_iff :
    ((reportedSources layout listing disk).map SourceFile.location).Nodup ↔
      lackingTwice layout disk = ∅ := by
  have places : lackingFiles layout disk =
      (((reportedSources layout listing disk).map SourceFile.location).toFinset :
        Set Location) := by
    ext location
    rw [Finset.mem_coe, List.mem_toFinset, mem_map_reportedSources formed faithful]
  rw [← length_reportedSources_eq_iff formed faithful, places, Set.encard_coe_eq_coe_finsetCard,
    Nat.cast_inj, eq_comm, ← List.length_map SourceFile.location, List.card_toFinset]
  constructor
  · intro once
    rw [once.dedup]
  · intro same
    rw [← (List.dedup_sublist _).eq_of_length same]
    exact List.nodup_dedup _

end Formed

/-- **How often a file is counted.** A check of licences that does not correct counts and announces
what it lists. A file that lacks its licence is among that once, and once more if it is a test suite
that is a header of the library as well. So every file counts once exactly if no such suite lacks
its licence, and there is none where the library and the test suites lie apart. -/
theorem checkLicense_counts_listings (settings : Console.Settings) (layout : Layout)
    (formed : world.disk.tree.Formed allowed) (faithful : ∀ kind, (listing kind).Faithful) :
    let reported := reportedSources layout listing world.disk
    checkLicense settings layout listing false world =
        ({ name := "license", kind := "missing LGPL licence", violations := reported.length },
          world.sayAll settings (reported.map (licenseNotice layout))) ∧
      (reported.length : ℕ∞) =
        (lackingFiles layout world.disk).encard + (lackingTwice layout world.disk).encard ∧
      ((reported.length : ℕ∞) = (lackingFiles layout world.disk).encard ↔
        lackingTwice layout world.disk = ∅) ∧
      ((reported.map SourceFile.location).Nodup ↔ lackingTwice layout world.disk = ∅) ∧
      (world.disk.tree.Plain → layout.Separate world.disk.here →
        lackingTwice layout world.disk = ∅) := by
  intro reported
  refine ⟨?_, length_reportedSources formed faithful,
    length_reportedSources_eq_iff formed faithful, nodup_reportedSources_iff formed faithful,
    lackingTwice_eq_empty⟩
  have announced := examineKinds_announces settings layout world SourceKind.all
    fun kind _ file member => exists_aspect?_of_mem_sources formed faithful member
  unfold checkLicense
  rw [announced]
  dsimp only
  rw [count_licenseOutcomes, ← librarySources, ← reportedSources, licenseNotices,
    ← reportedSources, Nat.zero_add]

/-- One test suite, which lies in the library. -/
def nestedSuite : World where
  disk :=
    { tree :=
        .dir "src" (.dir "agrum" (.dir "tests" (.leaf "ATestSuite.h"
          (.file (Text.Utf8.encode "int a;\n") false) .empty) .empty) .empty) .empty }

/-- A suite in the library is counted twice, though it is one file. -/
theorem checkLicense_counts_nested_suite :
    let layout : Layout := { testunits := "src/agrum/tests" }
    (checkLicense {} layout (fun _ => id) false nestedSuite).1.violations = 2 ∧
      lackingFiles layout nestedSuite.disk = {["src", "agrum", "tests", "ATestSuite.h"]} := by
  intro layout
  have formed : nestedSuite.disk.tree.Plain := by decide
  have faithful (_ : SourceKind) : Listing.Faithful id := Tree.Reordered.refl
  have starts : SourceKind.headers.start layout = "./src/agrum" ∧
      SourceKind.suites.start layout = "./src/agrum/tests" := by decide
  have steps : Disk.steps "./src/agrum" = [".", "src", "agrum"] ∧
      Disk.steps "./src/agrum/tests" = [".", "src", "agrum", "tests"] := by decide
  have relative : Path.isAbsolute "./src/agrum" = false ∧
      Path.isAbsolute "./src/agrum/tests" = false := by decide
  have library : nestedSuite.disk.open? (SourceKind.headers.start layout) =
      .ok (["src", "agrum"], .dir (.dir "tests" (.leaf "ATestSuite.h"
        (.file (Text.Utf8.encode "int a;\n") false) .empty) .empty)) := by
    simp [nestedSuite, starts, Disk.open?, Disk.locate, Disk.locateFrom, steps, relative,
      Disk.follow, Tree.at?, Tree.find?]
  have suites : nestedSuite.disk.open? (SourceKind.suites.start layout) =
      .ok (["src", "agrum", "tests"], .dir (.leaf "ATestSuite.h"
        (.file (Text.Utf8.encode "int a;\n") false) .empty)) := by
    simp [nestedSuite, starts, Disk.open?, Disk.locate, Disk.locateFrom, steps, relative,
      Disk.follow, Tree.at?, Tree.find?]
  have header : ["src", "agrum", "tests", "ATestSuite.h"] ∈
      SourceKind.headers.lacking layout nestedSuite.disk :=
    ⟨.below _ _ ["tests", "ATestSuite.h"], .below library rfl, by decide, by decide +kernel, rfl⟩
  have suite : ["src", "agrum", "tests", "ATestSuite.h"] ∈
      SourceKind.suites.lacking layout nestedSuite.disk :=
    ⟨.below _ _ ["ATestSuite.h"], .below suites rfl, by decide, by decide +kernel, rfl⟩
  -- no other file is there
  have only {location : Location} (lacks : location ∈ lackingFiles layout nestedSuite.disk) :
      location = ["src", "agrum", "tests", "ATestSuite.h"] := by
    obtain ⟨kind, file, lists, -, -, rfl⟩ := lacks
    have known := (Tree.mem_files formed file.location).mpr lists.present
    exact List.mem_singleton.mp known
  have files : lackingFiles layout nestedSuite.disk = {["src", "agrum", "tests", "ATestSuite.h"]} :=
    Set.eq_singleton_iff_unique_mem.mpr ⟨⟨.headers, header⟩, fun location => only⟩
  have twice : lackingTwice layout nestedSuite.disk = {["src", "agrum", "tests", "ATestSuite.h"]} :=
    Set.eq_singleton_iff_unique_mem.mpr
      ⟨⟨header, suite⟩, fun location listed => only ⟨.headers, listed.1⟩⟩
  obtain ⟨counts, length, -⟩ := checkLicense_counts_listings {} layout formed faithful
  refine ⟨?_, files⟩
  rw [files, twice, Set.encard_singleton] at length
  rw [counts]
  exact_mod_cast length

end BuildWarden.Guideline
