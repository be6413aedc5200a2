import BuildWarden.Proofs.Guideline.Handling
import BuildWarden.Proofs.Guideline.Run
/-!
# What the checks may touch

Each check of sources alters a disk only where it may: pairing adds missing units of headers, and
licences and formats go into sources that are there and not excepted. Without correction nothing is
altered at all.
-/

namespace BuildWarden.Guideline

variable {layout : Layout} {locked : Location → Bool} {correct : Bool}

/-! ### One examination -/

/-- A formatter that changes nothing when it is asked how a source should read, and at most the one
file that it is to rewrite. -/
structure Formatter.TouchesOne (formatter : Formatter) (layout : Layout)
    (locked : Location → Bool) : Prop where
  reformats : ∀ file (world : World), world.disk.locked = locked → world.disk.tree.Plain →
    IsLibrarySource layout file world.disk → (formatter.reformat file world).2.disk = world.disk
  applies : ∀ file (world : World), world.disk.locked = locked → world.disk.tree.Plain →
    IsLibrarySource layout file world.disk →
      world.disk.Alters (· = file.location) (formatter.apply file world).2.disk

/-- A formatter that is described by a conduct touches only the source it is given. -/
theorem FormatterConduct.Describes.touchesOne {conduct : FormatterConduct} {formatter : Formatter}
    (describes : conduct.Describes formatter layout locked) :
    formatter.TouchesOne layout locked where
  reformats file world fixed plain source := by
    obtain ⟨content, present⟩ := source.2.aspect?
    exact (describes.reformats file world content fixed plain source present).2
  applies file world fixed plain source := by
    obtain ⟨content, present⟩ := source.2.aspect?
    exact (describes.applies file world content fixed plain source present).2.2

section Examination
variable {file : SourceFile} {world : World} (settings : Console.Settings)
  (plain : world.disk.tree.Plain)
include plain

private theorem examinePairing_alters (stands : file.Stands world.disk) :
    world.disk.Alters (fun location => correct = true ∧ needsUnit layout file = true ∧
        world.disk.tree.outline? location = none ∧ unitPlace file = location)
      (examinePairing settings layout correct file world).2.disk := by
  obtain ⟨spelled, -⟩ := stands.directory plain
  have pairs : Pairs layout correct file world.disk _ _ :=
    examinePairing_pairs settings plain stands
  generalize (examinePairing settings layout correct file world).1 = outcome at pairs
  generalize (examinePairing settings layout correct file world).2.disk = after at pairs ⊢
  cases pairs with
  | fine paired => rfl
  | left missing hopeless => rfl
  | made inside allowed missing present free unlocked =>
      have needed := ((unpaired_iff plain stands).mp missing).1
      have vacant : world.disk.tree.outline? (unitPlace file) = none := by
        rw [unitPlace, Tree.outline?_concat present, free]
        rfl
      have alters := Disk.alters_put_new plain present free (isName_unitName spelled)
        (Text.Utf8.encode (unitText layout file))
      refine alters.mono ?_
      rintro location rfl
      exact ⟨allowed, needed, vacant, rfl⟩

variable (fixed : world.disk.locked = locked) (source : IsLibrarySource layout file world.disk)
include fixed source

omit fixed in
private theorem examineLicense_alters :
    world.disk.Alters
      (fun location => (correct = true ∧ unlicensed layout file = false) ∧ file.location = location)
      (examineLicense settings layout correct file world).2.disk := by
  have treats := examineLicense_treats settings layout correct rfl source.2 plain
  generalize (examineLicense settings layout correct file world).1 = outcome at treats
  generalize (examineLicense settings layout correct file world).2.disk = after at treats ⊢
  cases treats with
  | fine unseen => rfl
  | left content seen present hopeless => rfl
  | mended content mended executable allowed seen present replaces =>
      have checked := ((Amendment.finds_iff present).mp seen).1
      refine (Amendment.alters_replaced source.2 plain executable mended).mono ?_
      rintro location rfl
      exact ⟨⟨allowed, checked⟩, rfl⟩

private theorem examineFormat_alters {formatter : Formatter}
    (touches : formatter.TouchesOne layout locked) :
    world.disk.Alters
      (fun location => (correct = true ∧ unformatted layout file = false) ∧
        file.location = location)
      (examineFormat settings layout formatter correct file world).2.disk := by
  obtain ⟨content, present⟩ := source.2.aspect?
  have still := touches.reformats file world fixed plain source
  have turn := examineFormat_turn settings layout correct present rfl still
  generalize (examineFormat settings layout formatter correct file world).1 = outcome at turn
  generalize (examineFormat settings layout formatter correct file world).2.disk = after at turn ⊢
  cases turn with
  | fine => rfl
  | told => rfl
  | @tried text between allowed differs _ same =>
      -- asking changed nothing, so the rewrite starts on the same disk
      rw [← same] at fixed plain source ⊢
      refine (touches.applies file between fixed plain source).mono ?_
      rintro location rfl
      rw [readsOtherwise, Bool.and_eq_true, Bool.not_eq_true'] at differs
      exact ⟨⟨allowed, differs.1⟩, rfl⟩

end Examination

/-! ### Without correction -/

section Still
variable {file : SourceFile} {world : World} (settings : Console.Settings)

private theorem examinePairing_still :
    (examinePairing settings layout false file world).2.disk = world.disk := by
  unfold examinePairing
  dsimp only
  split
  · rfl
  · rfl

private theorem examineLicense_still :
    (examineLicense settings layout false file world).2.disk = world.disk := by
  unfold examineLicense
  dsimp only
  split
  · rfl
  · split
    · rfl
    · split
      · rfl
      · simp only [Bool.false_eq_true, ↓reduceIte, World.say_disk]

private theorem examineFormat_still {formatter : Formatter}
    (touches : formatter.TouchesOne layout world.disk.locked) (plain : world.disk.tree.Plain)
    (source : IsLibrarySource layout file world.disk) :
    (examineFormat settings layout formatter false file world).2.disk = world.disk := by
  have still := touches.reformats file world rfl plain source
  unfold examineFormat
  dsimp only
  split
  · rfl
  · generalize formatter.reformat file world = asked at still ⊢
    obtain ⟨answer | text, between⟩ := asked
    · exact still
    · dsimp only at still ⊢
      split
      · exact still
      · split
        · rw [World.say_disk, still]
        · simp only [Bool.false_eq_true, ↓reduceIte, World.say_disk, still]

end Still

/-! ### One check -/

namespace Inspection
variable {inspection : Inspection} {world : World}
  (faithful : ∀ walk, (inspection.listing walk).Faithful) (plain : world.disk.tree.Plain)
include faithful plain

/-- The pairing check alters only the places of missing units, and only if it corrects. -/
theorem pairing_alters (correct : Bool) :
    world.disk.Alters
      (fun location => correct = true ∧ world.disk.tree.outline? location = none ∧
        ∃ header ∈ SourceKind.headers.sources inspection.layout (inspection.listing .pairing)
          world.disk, needsUnit inspection.layout header = true ∧ unitPlace header = location)
      (inspection.pairing correct world).2.disk := by
  rw [pairing_eq]
  dsimp only [pairingOutcomes, examineHeaders]
  refine rel_examineAll _ (Disk.Alters.refl _) Disk.Alters.trans ?_
  intro header member between reached
  have stands := (Disk.stands_of_mem_enumerate plain (faithful .pairing) member).1
  refine (examinePairing_alters inspection.settings (reached.plain plain)
    (stands.extends reached.toExtends)).mono ?_
  rintro location ⟨allowed, needed, vacant, place⟩
  refine ⟨allowed, ?_, header, member, needed, place⟩
  -- what is vacant when the header's turn comes was vacant at the start
  cases there : world.disk.tree.outline? location with
  | none => rfl
  | some outline =>
      rw [reached.kept location outline there] at vacant
      cases vacant

/-- The licence check writes into sources that are not excepted. -/
theorem licenses_alters (correct : Bool) :
    world.disk.Alters
      (fun location => ∃ file ∈ librarySources inspection.layout
        (fun kind => inspection.listing (.license kind)) world.disk,
          (correct = true ∧ unlicensed inspection.layout file = false) ∧ file.location = location)
      (inspection.licenses correct world).2.disk := by
  rw [licenses_eq]
  dsimp only [licenseOutcomes]
  refine alters_examineKinds plain (fun kind => faithful (.license kind)) ?_
  intro file between _ plainly source
  exact examineLicense_alters inspection.settings plainly source

/-- The format check writes into sources that are not excepted. -/
theorem formats_alters (correct : Bool)
    (touches : inspection.formatter.TouchesOne inspection.layout world.disk.locked) :
    world.disk.Alters
      (fun location => ∃ file ∈ librarySources inspection.layout
        (fun kind => inspection.listing (.format kind)) world.disk,
          (correct = true ∧ unformatted inspection.layout file = false) ∧ file.location = location)
      (inspection.formats correct world).2.disk := by
  by_cases available : inspection.formatter.available = true
  · rw [formats_eq inspection available]
    dsimp only [formatOutcomes]
    refine alters_examineKinds plain (fun kind => faithful (.format kind)) ?_
    intro file between fixed plainly source
    exact examineFormat_alters inspection.settings plainly fixed source touches
  · rw [(formats_skipped inspection available correct world).2]

/-! ### One run -/

/-- Up to the licence check only the places of missing units are altered. -/
theorem stage_one_alters (correct : Bool) :
    world.disk.Alters
      (fun location => correct = true ∧ world.disk.tree.outline? location = none ∧
        ∃ header ∈ SourceKind.headers.sources inspection.layout (inspection.listing .pairing)
          world.disk, needsUnit inspection.layout header = true ∧ unitPlace header = location)
      (inspection.stage correct world 1).disk := by
  have starts := inspection.stage_zero_disk correct world
  rw [← starts] at plain
  have alters := pairing_alters faithful plain correct
  rwa [← stage_one_disk, starts] at alters

/-- The licence check alters only sources that it does not spare. -/
theorem stage_two_alters (correct : Bool) :
    (inspection.stage correct world 1).disk.Alters
      (fun location => ∃ file ∈ librarySources inspection.layout
        (fun kind => inspection.listing (.license kind)) (inspection.stage correct world 1).disk,
          (correct = true ∧ unlicensed inspection.layout file = false) ∧ file.location = location)
      (inspection.stage correct world 2).disk := by
  have plainOne := (stage_one_alters faithful plain correct).plain plain
  have alters := licenses_alters faithful plainOne correct
  rwa [← stage_two_disk] at alters

variable (idle : ∀ linter ∈ inspection.linter, DocLinter.Idle linter)
include idle

omit faithful plain in
/-- The documentation check alters nothing if its linter is idle. -/
theorem stage_three_same (correct : Bool) (world : World) :
    (inspection.stage correct world 3).disk = (inspection.stage correct world 2).disk := by
  rw [stage_three_disk, checkDocumentation_disk inspection idle]

/-- From the format check on only sources are altered that this check does not spare. -/
theorem run_alters (correct : Bool)
    (touches : inspection.formatter.TouchesOne inspection.layout world.disk.locked) :
    (inspection.stage correct world 3).disk.Alters
      (fun location => ∃ file ∈ librarySources inspection.layout
        (fun kind => inspection.listing (.format kind)) (inspection.stage correct world 3).disk,
          (correct = true ∧ unformatted inspection.layout file = false) ∧ file.location = location)
      (inspection.run correct world).2.disk := by
  have one := stage_one_alters faithful plain correct
  have two := stage_two_alters faithful plain correct
  have plainThree : (inspection.stage correct world 3).disk.tree.Plain := by
    rw [stage_three_same idle]
    exact two.plain (one.plain plain)
  have fixed : (inspection.stage correct world 3).disk.locked = world.disk.locked := by
    rw [stage_three_same idle]
    exact two.locked.trans one.locked
  rw [← fixed] at touches
  have alters := formats_alters faithful plainThree correct touches
  rwa [← stage_four_disk, ← run_disk] at alters

/-- **A run that only reports leaves the tree alone.** -/
theorem run_still
    (touches : inspection.formatter.TouchesOne inspection.layout world.disk.locked) :
    (inspection.run false world).2.disk = world.disk := by
  have one : (inspection.stage false world 1).disk = world.disk := by
    rw [stage_one_disk, pairing_eq]
    dsimp only [pairingOutcomes, examineHeaders]
    refine (rel_examineAll Eq Eq.refl Eq.trans ?_).symm.trans (inspection.stage_zero_disk _ _)
    intro header _ between _
    exact (examinePairing_still inspection.settings).symm
  have two : (inspection.stage false world 2).disk = world.disk := by
    rw [stage_two_disk, licenses_eq]
    dsimp only [licenseOutcomes]
    refine (still_examineKinds ?_ (fun kind => faithful (.license kind)) ?_).trans one
    · rwa [one]
    · intro file between _ _
      exact examineLicense_still inspection.settings
  have three : (inspection.stage false world 3).disk = world.disk :=
    (stage_three_same idle false world).trans two
  rw [run_disk, stage_four_disk]
  by_cases available : inspection.formatter.available = true
  · rw [formats_eq inspection available]
    dsimp only [formatOutcomes]
    refine (still_examineKinds ?_ (fun kind => faithful (.format kind)) ?_).trans three
    · rwa [three]
    · intro file between same source
      have whole := same.trans three
      refine examineFormat_still inspection.settings ?_ ?_ source
      · rwa [whole]
      · rwa [whole]
  · rw [(formats_skipped inspection available false _).2, three]

end Inspection
end BuildWarden.Guideline
