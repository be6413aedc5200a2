import BuildWarden.Proofs.Guideline.Convergence
import BuildWarden.Proofs.Guideline.Frame
import BuildWarden.Proofs.Tree.Relative
/-!
# What a run may touch

The exceptions of a check are matched with the path of a source as it is shown, but they speak of
places: a source below a directory of third parties, or one that a generator wrote. The path shows
every name below the root, so the exceptions hold wherever the root and the sources are said to be.
From this and from what each check alters follows what a whole run may touch.
-/

namespace BuildWarden.Guideline

/-! ### Excepted places -/

private theorem leadsOn_start (layout : Layout) (kind : SourceKind) :
    Path.LeadsOn layout.root (kind.start layout) := by
  cases kind with
  | units => exact (Path.LeadsOn.refl _).join layout.library
  | headers => exact (Path.LeadsOn.refl _).join layout.library
  | suites => exact (Path.LeadsOn.refl _).join layout.testunits

section Places
variable {layout : Layout} {file : SourceFile} {disk : Disk} {names : Location} {name : String}
  {fragments : List String} (plain : disk.tree.Plain) (source : IsLibrarySource layout file disk)
include source

private theorem IsLibrarySource.leadsOn : Path.LeadsOn layout.root file.path := by
  obtain ⟨kind, below, path⟩ := source.1
  rw [path]
  exact (leadsOn_start layout kind).foldl_join below

include plain

private theorem IsLibrarySource.target : Path.target disk.here file.path = file.location := by
  obtain ⟨content, executable, leads⟩ := source.2
  exact (Disk.target_of_locate plain (Disk.open?_eq_ok.mp leads)).symm

variable (lies : file.location = Path.target disk.here layout.root ++ names)
include lies

/-- A source below an excepted directory is excepted. -/
theorem isExcepted_of_directory (member : name ∈ names.dropLast)
    (unslanted : '\\' ∉ name.toList) (listed : "/" ++ name ++ "/" ∈ fragments) :
    isExcepted (shownName layout file) fragments = true := by
  rw [← source.target plain] at lies
  refine List.any_eq_true.mpr ⟨_, listed, ?_⟩
  exact Path.contains_relativeTo_of_directory source.leadsOn lies member unslanted

/-- A source with an excepted fragment in one of its names is excepted. -/
theorem isExcepted_of_name {fragment : String} (member : name ∈ names)
    (inside : Text.contains fragment name = true) (unslanted : '\\' ∉ fragment.toList)
    (listed : fragment ∈ fragments) : isExcepted (shownName layout file) fragments = true := by
  rw [← source.target plain] at lies
  refine List.any_eq_true.mpr ⟨fragment, listed, ?_⟩
  exact Path.contains_relativeTo_of_name source.leadsOn lies member unslanted inside

end Places

/-- One of the sources lies there, and it is not spared. -/
def UnsparedAt (sources : List SourceFile) (spared : SourceFile → Bool) (location : Location) :
    Prop :=
  ∃ file ∈ sources, spared file = false ∧ file.location = location

/-! ### Excepted places in a tree -/

section Tree
variable {layout : Layout} {listing : SourceKind → Listing} {disk : Disk} {names : Location}
  {fragments : List String} (plain : disk.tree.Plain) (faithful : ∀ kind, (listing kind).Faithful)
include plain faithful

private theorem isLibrarySource_of_listed {file : SourceFile}
    (member : file ∈ librarySources layout listing disk) : IsLibrarySource layout file disk := by
  obtain ⟨kind, -, listed⟩ := List.mem_flatMap.mp member
  exact Amendment.isLibrarySource_of_mem plain (faithful kind) listed

private theorem not_unsparedAt_of_directory {name : String} (member : name ∈ names.dropLast)
    (unslanted : '\\' ∉ name.toList) (listed : "/" ++ name ++ "/" ∈ fragments) :
    ¬UnsparedAt (librarySources layout listing disk)
      (fun file => isExcepted (shownName layout file) fragments)
      (Path.target disk.here layout.root ++ names) := by
  rintro ⟨file, source, unspared, lies⟩
  have excepted := isExcepted_of_directory plain (isLibrarySource_of_listed plain faithful source)
    lies member unslanted listed
  exact Bool.false_ne_true (unspared.symm.trans excepted)

private theorem not_unsparedAt_of_name {name fragment : String} (member : name ∈ names)
    (inside : Text.contains fragment name = true) (unslanted : '\\' ∉ fragment.toList)
    (listed : fragment ∈ fragments) :
    ¬UnsparedAt (librarySources layout listing disk)
      (fun file => isExcepted (shownName layout file) fragments)
      (Path.target disk.here layout.root ++ names) := by
  rintro ⟨file, source, unspared, lies⟩
  have excepted := isExcepted_of_name plain (isLibrarySource_of_listed plain faithful source) lies
    member inside unslanted listed
  exact Bool.false_ne_true (unspared.symm.trans excepted)

private theorem UnsparedAt.outline? {spared : SourceFile → Bool} {location : Location}
    (unspared : UnsparedAt (librarySources layout listing disk) spared location) :
    disk.tree.outline? location = some .file := by
  obtain ⟨file, source, -, rfl⟩ := unspared
  obtain ⟨content, present⟩ := (isLibrarySource_of_listed plain faithful source).2.aspect?
  exact Amendment.outline?_of_aspect? present

/-- Where sources alone are altered, nothing is made. -/
theorem vacant_of_alters {spared : SourceFile → Bool} {location : Location} {after : Disk}
    (alters : disk.Alters (UnsparedAt (librarySources layout listing disk) spared) after)
    (vacant : disk.tree.aspect? location = none) : after.tree.aspect? location = none := by
  refine (alters.elsewhere location fun unspared => ?_).trans vacant
  have file := unspared.outline? plain faithful
  rw [Tree.outline?, vacant] at file
  cases file

/-- An unspared source that stood before an alteration was unspared then. -/
theorem UnsparedAt.before {spared : SourceFile → Bool} {location : Location} {outline : Outline}
    {altered : Location → Prop} {after : Disk} (alters : disk.Alters altered after)
    (stood : disk.tree.outline? location = some outline)
    (unspared : UnsparedAt (librarySources layout listing after) spared location) :
    UnsparedAt (librarySources layout listing disk) spared location := by
  obtain ⟨file, source, free, rfl⟩ := unspared
  have same : after.tree.outline? file.location = disk.tree.outline? file.location := by
    rw [stood, alters.kept _ _ stood]
  exact ⟨file, (mem_librarySources_iff alters plain faithful faithful same).mp source, free, rfl⟩

end Tree

/-- No header below an excepted directory needs a unit there. -/
theorem not_needsUnit_of_directory {layout : Layout} {header : SourceFile} {disk : Disk}
    {names : Location} {name : String} (plain : disk.tree.Plain)
    (source : IsLibrarySource layout header disk)
    (lies : unitPlace header = Path.target disk.here layout.root ++ names)
    (member : name ∈ names.dropLast) (unslanted : '\\' ∉ name.toList)
    (listed : "/" ++ name ++ "/" ∈ pairingExceptions) : needsUnit layout header = false := by
  have some : names ≠ [] := List.ne_nil_of_mem (List.dropLast_subset _ member)
  -- the header lies beside its unit, so it is below the same directories
  rw [← List.dropLast_append_getLast some, ← List.append_assoc] at lies
  obtain ⟨directory, -⟩ := List.append_inj' lies rfl
  have beside : header.location =
      Path.target disk.here layout.root ++ (names.dropLast ++ [header.name]) := by
    rw [SourceFile.location, directory, List.append_assoc]
  have excepted := isExcepted_of_directory plain source beside
    (by rwa [List.dropLast_concat]) unslanted listed
  rw [needsUnit, excepted, Bool.not_true, Bool.false_and, Bool.false_and]

/-! ### One run -/

namespace Inspection
variable {inspection : Inspection} {world : World}
  (faithful : ∀ walk, (inspection.listing walk).Faithful) (plain : world.disk.tree.Plain)
  (idle : ∀ linter ∈ inspection.linter, DocLinter.Idle linter)
  (touches : inspection.formatter.TouchesOne inspection.layout world.disk.locked)
include faithful plain idle touches

/-- What the three checks of sources in a correcting run may alter, each on the tree it meets. -/
theorem run_stages :
    world.disk.Alters
        (fun location => world.disk.tree.outline? location = none ∧
          ∃ header ∈ SourceKind.headers.sources inspection.layout (inspection.listing .pairing)
            world.disk, needsUnit inspection.layout header = true ∧ unitPlace header = location)
        (inspection.stage true world 1).disk ∧
      (inspection.stage true world 1).disk.Alters
        (UnsparedAt (librarySources inspection.layout
            (fun kind => inspection.listing (.license kind)) (inspection.stage true world 1).disk)
          (unlicensed inspection.layout))
        (inspection.stage true world 2).disk ∧
      (inspection.stage true world 2).disk.Alters
        (UnsparedAt (librarySources inspection.layout
            (fun kind => inspection.listing (.format kind)) (inspection.stage true world 2).disk)
          (unformatted inspection.layout))
        (inspection.run true world).2.disk := by
  have three := stage_three_same idle true world
  have format := run_alters faithful plain idle true touches
  rw [three] at format
  refine ⟨(stage_one_alters faithful plain true).mono ?_,
    (stage_two_alters faithful plain true).mono ?_, format.mono ?_⟩
  · rintro location ⟨-, vacant, header, member, needed, place⟩
    exact ⟨vacant, header, member, needed, place⟩
  · rintro location ⟨file, member, ⟨-, unspared⟩, place⟩
    exact ⟨file, member, unspared, place⟩
  · rintro location ⟨file, member, ⟨-, unspared⟩, place⟩
    exact ⟨file, member, unspared, place⟩

private theorem run_keeps :
    (∀ location outline, world.disk.tree.outline? location = some outline →
        (inspection.run true world).2.disk.tree.outline? location = some outline) ∧
      ∀ location, (inspection.run true world).2.disk.tree.outline? location = some .dir →
        world.disk.tree.outline? location = some .dir := by
  obtain ⟨one, two, four⟩ := run_stages faithful plain idle touches
  refine ⟨((one.toExtends.trans two.toExtends).trans four.toExtends).kept, ?_⟩
  intro location dir
  have between := (four.agree.dirs location).mp dir
  exact (one.agree.dirs location).mp ((two.agree.dirs location).mp between)

/-- **What changes** was vacant and gets the unit of a header, or was a file and is rewritten. -/
theorem run_creates_or_rewrites {location : Location}
    (changed : (inspection.run true world).2.disk.tree.aspect? location ≠
      world.disk.tree.aspect? location) :
    (world.disk.Creates (inspection.run true world).2.disk location ∧
        ∃ header ∈ SourceKind.headers.sources inspection.layout (inspection.listing .pairing)
          world.disk, needsUnit inspection.layout header = true ∧ unitPlace header = location) ∨
      world.disk.Rewrites (inspection.run true world).2.disk location := by
  obtain ⟨one, two, four⟩ := run_stages faithful plain idle touches
  have plainOne := one.plain plain
  have plainTwo := two.plain plainOne
  have whole : world.disk.Alters (fun _ => True) (inspection.run true world).2.disk :=
    ((one.mono fun _ _ => trivial).trans (two.mono fun _ _ => trivial)).trans
      (four.mono fun _ _ => trivial)
  refine (whole.creates_or_rewrites plain changed).imp_left fun creates => ⟨creates, ?_⟩
  by_contra unneeded
  -- only pairing makes files: the later checks find nothing where it made none
  have vacantOne := (one.elsewhere location fun altered => unneeded altered.2).trans creates.1
  have vacantTwo := vacant_of_alters plainOne (fun kind => faithful (.license kind)) two vacantOne
  have vacant := vacant_of_alters plainTwo (fun kind => faithful (.format kind)) four vacantTwo
  obtain ⟨content, present⟩ := creates.2
  rw [vacant] at present
  cases present

/-- A check that rewrites a file found an unspared source there, on the tree at the start. -/
theorem run_rewrites_unspared {location : Location} {old : Bytes}
    (present : world.disk.tree.aspect? location = some (.file old)) :
    ((inspection.stage true world 1).disk.Rewrites (inspection.stage true world 2).disk location →
        UnsparedAt (librarySources inspection.layout
          (fun kind => inspection.listing (.license kind)) world.disk)
          (unlicensed inspection.layout) location) ∧
      ((inspection.stage true world 3).disk.Rewrites (inspection.run true world).2.disk location →
        UnsparedAt (librarySources inspection.layout
          (fun kind => inspection.listing (.format kind)) world.disk)
          (unformatted inspection.layout) location) := by
  obtain ⟨one, two, four⟩ := run_stages faithful plain idle touches
  rw [stage_three_same idle]
  have stood := Amendment.outline?_of_aspect? present
  constructor
  · intro rewrites
    exact UnsparedAt.before plain (fun kind => faithful (.license kind)) one stood
      (two.altered_of_rewrites rewrites)
  · intro rewrites
    have reached : world.disk.Alters (fun _ => True) (inspection.stage true world 2).disk :=
      (one.mono fun _ _ => trivial).trans (two.mono fun _ _ => trivial)
    exact UnsparedAt.before plain (fun kind => faithful (.format kind)) reached stood
      (four.altered_of_rewrites rewrites)

/-- What is rewritten is rewritten by the licence check or by the format check. -/
theorem run_rewrites {location : Location}
    (rewrites : world.disk.Rewrites (inspection.run true world).2.disk location) :
    (inspection.stage true world 1).disk.Rewrites (inspection.stage true world 2).disk location ∨
      (inspection.stage true world 3).disk.Rewrites (inspection.run true world).2.disk
        location := by
  obtain ⟨one, two, four⟩ := run_stages faithful plain idle touches
  rw [stage_three_same idle]
  obtain ⟨old, new, before, after, different⟩ := rewrites
  have paired : (inspection.stage true world 1).disk.tree.aspect? location = some (.file old) := by
    rw [one.elsewhere location, before]
    rintro ⟨vacant, -⟩
    rw [Amendment.outline?_of_aspect? before] at vacant
    cases vacant
  by_cases same : (inspection.stage true world 2).disk.tree.aspect? location =
      (inspection.stage true world 1).disk.tree.aspect? location
  · rw [paired] at same
    exact .inr ⟨old, new, same, after, different⟩
  · rcases two.creates_or_rewrites (one.plain plain) same with creates | rewrites
    · rw [creates.1] at paired
      cases paired
    · exact .inl rewrites

/-- Below a directory that every check excepts, nothing changes. -/
theorem run_spares_directory {names : Location} {name : String} (member : name ∈ names.dropLast)
    (unslanted : '\\' ∉ name.toList) (listed : "/" ++ name ++ "/" ∈ pairingExceptions)
    (listedToo : "/" ++ name ++ "/" ∈ licenseExceptions)
    (listedLast : "/" ++ name ++ "/" ∈ formatExceptions) :
    (inspection.run true world).2.disk.tree.aspect?
        (Path.target world.disk.here inspection.layout.root ++ names) =
      world.disk.tree.aspect? (Path.target world.disk.here inspection.layout.root ++ names) := by
  obtain ⟨one, two, four⟩ := run_stages faithful plain idle touches
  have plainOne := one.plain plain
  refine (four.elsewhere _ ?_).trans ((two.elsewhere _ ?_).trans (one.elsewhere _ ?_))
  · rw [← one.here, ← two.here]
    exact not_unsparedAt_of_directory (two.plain plainOne) (fun kind => faithful (.format kind))
      member unslanted listedLast
  · rw [← one.here]
    exact not_unsparedAt_of_directory plainOne (fun kind => faithful (.license kind)) member
      unslanted listedToo
  · rintro ⟨-, header, source, needed, place⟩
    have headed := Amendment.isLibrarySource_of_mem plain (faithful .pairing) source
    rw [not_needsUnit_of_directory plain headed place member unslanted listed] at needed
    cases needed

/-- A file with a fragment in its names that the checks of contents except does not change. -/
theorem run_spares_name {names : Location} {name fragment : String} {content : Bytes}
    (member : name ∈ names) (inside : Text.contains fragment name = true)
    (unslanted : '\\' ∉ fragment.toList) (listed : fragment ∈ licenseExceptions)
    (listedToo : fragment ∈ formatExceptions)
    (present : world.disk.tree.aspect?
      (Path.target world.disk.here inspection.layout.root ++ names) = some (.file content)) :
    (inspection.run true world).2.disk.tree.aspect?
      (Path.target world.disk.here inspection.layout.root ++ names) = some (.file content) := by
  obtain ⟨one, two, four⟩ := run_stages faithful plain idle touches
  have plainOne := one.plain plain
  rw [← present]
  refine (four.elsewhere _ ?_).trans ((two.elsewhere _ ?_).trans (one.elsewhere _ ?_))
  · rw [← one.here, ← two.here]
    exact not_unsparedAt_of_name (two.plain plainOne) (fun kind => faithful (.format kind)) member
      inside unslanted listedToo
  · rw [← one.here]
    exact not_unsparedAt_of_name plainOne (fun kind => faithful (.license kind)) member inside
      unslanted listed
  · rintro ⟨vacant, -⟩
    rw [Amendment.outline?_of_aspect? present] at vacant
    cases vacant

omit idle in
/-- **A correcting run touches only what it may fix.** What changes gets the missing unit of a
header that needs one, or is a source that is not spared by the check that rewrites it. All that is
there stays, no directory is made, and third parties and generated sources are left alone. A run
that only reports changes nothing. -/
theorem run_confined (unlinted : inspection.linter = none) :
    let after := (inspection.run true world).2.disk
    let root := Path.target world.disk.here inspection.layout.root
    let relicensed := (inspection.stage true world 1).disk.Rewrites
      (inspection.stage true world 2).disk
    let reformatted := (inspection.stage true world 3).disk.Rewrites after
    (∀ location, after.tree.aspect? location ≠ world.disk.tree.aspect? location →
      (world.disk.Creates after location ∧
        ∃ header ∈ SourceKind.headers.sources inspection.layout (inspection.listing .pairing)
          world.disk, needsUnit inspection.layout header = true ∧ unitPlace header = location) ∨
      (world.disk.Rewrites after location ∧ (relicensed location ∨ reformatted location) ∧
        (relicensed location →
          UnsparedAt (librarySources inspection.layout
            (fun kind => inspection.listing (.license kind)) world.disk)
            (unlicensed inspection.layout) location) ∧
        (reformatted location →
          UnsparedAt (librarySources inspection.layout
            (fun kind => inspection.listing (.format kind)) world.disk)
            (unformatted inspection.layout) location))) ∧
    (∀ location outline, world.disk.tree.outline? location = some outline →
      after.tree.outline? location = some outline) ∧
    (∀ location, after.tree.outline? location = some .dir →
      world.disk.tree.outline? location = some .dir) ∧
    (∀ names : Location, "external" ∈ names.dropLast →
      after.tree.aspect? (root ++ names) = world.disk.tree.aspect? (root ++ names)) ∧
    (∀ (names : Location) content,
      (∃ name ∈ names, Text.contains "Parser" name = true ∨ Text.contains "Scanner" name = true) →
      world.disk.tree.aspect? (root ++ names) = some (.file content) →
      after.tree.aspect? (root ++ names) = some (.file content)) ∧
    (inspection.run false world).2.disk = world.disk := by
  have idle : ∀ linter ∈ inspection.linter, DocLinter.Idle linter := by simp [unlinted]
  intro after root relicensed reformatted
  obtain ⟨kept, dirs⟩ := run_keeps faithful plain idle touches
  refine ⟨?_, kept, dirs, ?_, ?_, run_still faithful plain idle touches⟩
  · intro location changed
    rcases run_creates_or_rewrites faithful plain idle touches changed with made | rewrites
    · exact .inl made
    · have cause := run_rewrites faithful plain idle touches rewrites
      obtain ⟨old, new, present, -⟩ := id rewrites
      have unspared := run_rewrites_unspared faithful plain idle touches present
      exact .inr ⟨rewrites, cause, unspared⟩
  · intro names member
    exact run_spares_directory faithful plain idle touches member (by decide) (by decide)
      (by decide) (by decide)
  · rintro names content ⟨name, member, parser | scanner⟩ present
    · exact run_spares_name faithful plain idle touches member parser (by decide) (by decide)
        (by decide) present
    · exact run_spares_name faithful plain idle touches member scanner (by decide) (by decide)
        (by decide) present

end Inspection

/-- A library of three headers without units and licences, one of them of third parties and one
generated. -/
def sparedHeaders : World where
  disk :=
    { tree :=
        .dir "src" (.dir "agrum" (.dir "external" (.leaf "x.h" (.file [] false) .empty)
          (.leaf "BIFParser.h" (.file [] false) (.leaf "a.h" (.file [] false) .empty))) .empty)
          .empty }

/-- The header of third parties gets no unit and no licence, and the generated one no licence. -/
theorem run_confined_spared_headers :
    let after := (usualInspection.run true sparedHeaders).2.disk
    sparedHeaders.disk.tree.Plain ∧ usualInspection.linter = none ∧
      textLeaver.TouchesOne {} sparedHeaders.disk.locked ∧
      after.tree.aspect? ["src", "agrum", "external", "x.cpp"] = none ∧
      after.tree.aspect? ["src", "agrum", "external", "x.h"] = some (.file []) ∧
      after.tree.aspect? ["src", "agrum", "BIFParser.h"] = some (.file []) ∧
      (usualInspection.run false sparedHeaders).2.disk = sparedHeaders.disk := by
  intro after
  have plain : sparedHeaders.disk.tree.Plain := by decide
  have touches : textLeaver.TouchesOne {} sparedHeaders.disk.locked :=
    (leavingTexts_described {} sparedHeaders.disk.locked).touchesOne
  have faithful (walk : Walk) : (usualInspection.listing walk).Faithful :=
    fun tree => Tree.Reordered.refl tree
  obtain ⟨-, -, -, external, generated, still⟩ :=
    Inspection.run_confined faithful plain touches (rfl : usualInspection.linter = none)
  refine ⟨plain, rfl, touches, ?_, ?_, ?_, still⟩
  · exact external ["src", "agrum", "external", "x.cpp"] (by decide)
  · exact external ["src", "agrum", "external", "x.h"] (by decide)
  · refine generated ["src", "agrum", "BIFParser.h"] [] ⟨"BIFParser.h", by decide, .inl ?_⟩ ?_
    · decide
    · decide

end BuildWarden.Guideline
