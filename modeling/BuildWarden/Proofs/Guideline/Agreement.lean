import BuildWarden.Proofs.Guideline.Frame
/-!
# Runs that agree

Two runs on the same tree agree wherever their formatters and the files that cannot be written do.
No check lets the outcome of one source depend on another one: different headers have different
units, and a source is judged and changed by itself. So neither the order in which directories are
listed nor a failure at one location is of any account elsewhere.
-/

namespace BuildWarden

/-- No file is named by the ending of headers alone. -/
def Disk.NoBareHeader (disk : Disk) : Prop :=
  ∀ location content, disk.tree.aspect? (location ++ [".h"]) ≠ some (.file content)

/-- Whether there is such a file can be seen from the files of the tree. -/
theorem Disk.noBareHeader_of_files {disk : Disk} (plain : disk.tree.Plain)
    (named : ∀ names ∈ disk.tree.files, names.getLastD "" ≠ ".h") : disk.NoBareHeader := by
  intro location content present
  obtain ⟨item, stands, same⟩ := Option.map_eq_some_iff.mp present
  obtain ⟨content', executable, rfl⟩ : ∃ content' executable,
      item = .leaf (.file content' executable) := by
    rcases item with (⟨content', executable⟩ | _) | _
    · exact ⟨content', executable, rfl⟩
    · cases same
    · cases same
  have listed := (Tree.mem_files plain (location ++ [".h"])).mpr ⟨content', executable, stands⟩
  exact named _ listed (by simp)

namespace Guideline

variable {apart : Location → Prop} {layout : Layout} {locked lockedToo : Location → Bool}

/-! ### Treatments that agree -/

private theorem Handling.alike {one two : Handling} (correct : Bool)
    (same : ∀ file, ¬apart file.location → two.flags file = one.flags file ∧
      two.succeeds file = one.succeeds file ∧ two.leaves file = one.leaves file) :
    Treatment.Alike apart (one.treatment correct) (two.treatment correct) := by
  intro file outside
  obtain ⟨flags, succeeds, leaves⟩ := same file outside
  constructor
  · funext found
    simp only [treatment, flags, succeeds]
  · funext found
    simp only [treatment, flags, leaves]

section Locks
variable (locks : ∀ location, ¬apart location → lockedToo location = locked location)
include locks

private theorem licenseHandling_alike (layout : Layout) (correct : Bool) :
    Treatment.Alike apart ((licenseHandling layout locked).treatment correct)
      ((licenseHandling layout lockedToo).treatment correct) := by
  refine Handling.alike correct fun file outside => ⟨rfl, ?_, ?_⟩
  · funext content
    simp only [licenseHandling, Amendment.handling, licensing, locks file.location outside]
  · funext content
    simp only [licenseHandling, Amendment.handling, licensing, locks file.location outside]

private theorem pairingTreatment_alike (layout : Layout) (correct : Bool) :
    Treatment.Alike apart (pairingTreatment layout locked correct)
      (pairingTreatment layout lockedToo correct) := by
  intro header outside
  constructor
  · funext found
    simp only [pairingTreatment, locks (unitPlace header) outside]
  · funext found
    simp only [pairingTreatment, locks (unitPlace header) outside]

end Locks

/-- A conduct that treats sources as another one does, apart from those at some locations. -/
def FormatterConduct.Alike (apart : Location → Prop) (one two : FormatterConduct) : Prop :=
  ∀ file, ¬apart file.location → two.text? file = one.text? file ∧
    two.succeeds file = one.succeeds file ∧ two.leaves file = one.leaves file

private theorem FormatterConduct.Alike.treatment {one two : FormatterConduct}
    (alike : one.Alike apart two)
    (layout : Layout) (correct : Bool) :
    Treatment.Alike apart ((one.handling layout).treatment correct)
      ((two.handling layout).treatment correct) := by
  refine Handling.alike correct fun file outside => ?_
  obtain ⟨text, succeeds, leaves⟩ := alike file outside
  exact ⟨by simp only [handling, text], succeeds, leaves⟩

/-- Different headers have their units at different places. -/
theorem nodup_units {listing : Listing} {disk : Disk} (plain : disk.tree.Plain)
    (faithful : listing.Faithful) (named : disk.NoBareHeader) :
    ((SourceKind.headers.sources layout listing disk).map unitPlace).Nodup := by
  have headed : ∀ header ∈ SourceKind.headers.sources layout listing disk,
      SourceKind.headers.pattern.accepts header.name = true ∧ header.name ≠ ".h" := by
    intro header member
    obtain ⟨stands, accepted⟩ := Disk.stands_of_mem_enumerate plain faithful member
    refine ⟨accepted, fun bare => ?_⟩
    obtain ⟨content, present⟩ := stands.aspect?
    rw [SourceFile.location, bare] at present
    exact named _ _ present
  refine (Disk.nodup_enumerate plain faithful).map_on ?_
  intro header member other memberOther same
  obtain ⟨accepted, something⟩ := headed header member
  obtain ⟨acceptedToo, somethingToo⟩ := headed other memberOther
  obtain ⟨directories, units⟩ := List.append_inj' same rfl
  have names := unitName_injective accepted acceptedToo something somethingToo
    (List.singleton_injective units)
  refine Disk.injOn_location plain faithful header member other memberOther ?_
  rw [SourceFile.location, SourceFile.location, directories, names]

/-! ### Checks that agree -/

namespace Inspection
variable {one two : Inspection} {conduct conductToo : FormatterConduct} {world next : World}

/-- What makes a run foreseeable: every directory is listed in full, there are only directories and
regular files, none of them a header without a name, the formatter goes by single files, and the
linter touches none. -/
structure Regular (inspection : Inspection) (conduct : FormatterConduct) (disk : Disk) : Prop where
  faithful : ∀ walk, (inspection.listing walk).Faithful
  plain : disk.tree.Plain
  named : disk.NoBareHeader
  describes : conduct.Describes inspection.formatter inspection.layout disk.locked
  idle : ∀ linter ∈ inspection.linter, DocLinter.Idle linter

section Checks
variable (faithful : ∀ walk, (one.listing walk).Faithful)
  (faithfulToo : ∀ walk, (two.listing walk).Faithful) (layouts : two.layout = one.layout)
  (plain : world.disk.tree.Plain) (plainToo : next.disk.tree.Plain)
include faithful faithfulToo layouts plain plainToo

/-- Pairing checks that start on the same tree agree. -/
theorem agree_pairing [DecidablePred apart] (correct : Bool) (named : world.disk.NoBareHeader)
    (same : Disk.AgreeApart (fun _ => False) world.disk next.disk)
    (locks : ∀ location, ¬apart location →
      next.disk.locked location = world.disk.locked location) :
    Disk.AgreeApart apart (one.pairing correct world).2.disk (two.pairing correct next).2.disk ∧
      (verdictsElsewhere unitPlace apart (two.pairingVisits correct next)).Perm
        (verdictsElsewhere unitPlace apart (one.pairingVisits correct world)) := by
  have namedToo : next.disk.NoBareHeader := by
    intro location content
    rw [same.seen _ id]
    exact named location content
  have governs := examinePairing_governed one.settings one.layout world.disk.locked correct
  have governsToo := examinePairing_governed two.settings two.layout next.disk.locked correct
  rw [pairing_eq, pairing_eq]
  dsimp only [pairingOutcomes, examineHeaders, pairingVisits]
  rw [layouts] at governsToo ⊢
  refine Treatment.agree_examineAll governs governsToo (pairingTreatment_alike locks _ correct) rfl
    rfl plain plainToo ?_ ?_ (nodup_units plain (faithful .pairing) named)
    (nodup_units plainToo (faithfulToo .pairing) namedToo) ?_ (same.mono fun _ none => none.elim)
  · intro file member
    exact Amendment.isLibrarySource_of_mem plain (faithful .pairing) member
  · intro file member
    exact Amendment.isLibrarySource_of_mem plainToo (faithfulToo .pairing) member
  · intro file _
    exact ⟨same.symm.mem_enumerate plainToo plain (faithfulToo .pairing) (faithful .pairing)
        (same.symm.outline? id),
      same.mem_enumerate plain plainToo (faithful .pairing) (faithfulToo .pairing)
        (same.outline? id)⟩

variable (agree : Disk.AgreeApart apart world.disk next.disk)
include agree

/-- Licence checks that start on trees that agree end in agreement. -/
theorem agree_licenses [DecidablePred apart] (correct : Bool)
    (locks : ∀ location, ¬apart location →
      next.disk.locked location = world.disk.locked location) :
    Disk.AgreeApart apart (one.licenses correct world).2.disk (two.licenses correct next).2.disk ∧
      (verdictsElsewhere SourceFile.location apart (two.licenseVisits correct next)).Perm
        (verdictsElsewhere SourceFile.location apart (one.licenseVisits correct world)) := by
  have governs := examineLicense_governed one.settings one.layout world.disk.locked correct
  have governsToo := examineLicense_governed two.settings two.layout next.disk.locked correct
  rw [licenses_eq, licenses_eq]
  dsimp only [licenseOutcomes, licenseVisits]
  rw [layouts] at governsToo ⊢
  exact Treatment.agree_examineKinds governs governsToo (licenseHandling_alike locks _ correct)
    (fun kind => faithful (.license kind)) (fun kind => faithfulToo (.license kind)) rfl rfl plain
    plainToo agree

/-- Format checks that start on trees that agree end in agreement. -/
theorem agree_formats [DecidablePred apart] (correct : Bool)
    (available : two.formatter.available = one.formatter.available)
    (describes : conduct.Describes one.formatter one.layout world.disk.locked)
    (describesToo : conductToo.Describes two.formatter two.layout next.disk.locked)
    (conducts : conduct.Alike apart conductToo) :
    Disk.AgreeApart apart (one.formats correct world).2.disk (two.formats correct next).2.disk ∧
      (verdictsElsewhere SourceFile.location apart (two.formatVisits correct next)).Perm
        (verdictsElsewhere SourceFile.location apart (one.formatVisits correct world)) := by
  unfold formatVisits
  by_cases there : one.formatter.available = true
  · have thereToo := available.trans there
    have governs := examineFormat_governed describes one.settings correct
    have governsToo := examineFormat_governed describesToo two.settings correct
    rw [formats_eq one there, formats_eq two thereToo, if_pos there, if_pos thereToo]
    dsimp only [formatOutcomes]
    rw [layouts] at governsToo ⊢
    exact Treatment.agree_examineKinds governs governsToo (conducts.treatment _ correct)
      (fun kind => faithful (.format kind)) (fun kind => faithfulToo (.format kind)) rfl rfl plain
      plainToo agree
  · have thereToo : ¬two.formatter.available = true := by rwa [available]
    rw [(formats_skipped one there correct world).2, (formats_skipped two thereToo correct next).2,
      if_neg there, if_neg thereToo]
    exact ⟨agree, .refl _⟩

end Checks

/-! ### Runs that agree -/

/-- Two runs that end alike apart from some locations: what is on the disk, and what each check of
sources makes of the others. -/
structure RunsAgree (apart : Location → Prop) [DecidablePred apart] (one two : Inspection)
    (correct : Bool) (world next : World) : Prop where
  disks : Disk.AgreeApart apart (one.run correct world).2.disk (two.run correct next).2.disk
  pairing : (verdictsElsewhere unitPlace apart
      (two.pairingVisits correct (two.stage correct next 0))).Perm
    (verdictsElsewhere unitPlace apart (one.pairingVisits correct (one.stage correct world 0)))
  licenses : (verdictsElsewhere SourceFile.location apart
      (two.licenseVisits correct (two.stage correct next 1))).Perm
    (verdictsElsewhere SourceFile.location apart
      (one.licenseVisits correct (one.stage correct world 1)))
  formats : (verdictsElsewhere SourceFile.location apart
      (two.formatVisits correct (two.stage correct next 3))).Perm
    (verdictsElsewhere SourceFile.location apart
      (one.formatVisits correct (one.stage correct world 3)))

/-- **Runs on the same tree agree where their formatters and locks do.** -/
theorem runs_agree [DecidablePred apart] (regular : one.Regular conduct world.disk)
    (regularToo : two.Regular conductToo next.disk) (layouts : two.layout = one.layout)
    (available : two.formatter.available = one.formatter.available)
    (conducts : conduct.Alike apart conductToo)
    (same : Disk.AgreeApart (fun _ => False) world.disk next.disk)
    (locks : ∀ location, ¬apart location → next.disk.locked location = world.disk.locked location)
    (correct : Bool) : RunsAgree apart one two correct world next := by
  obtain ⟨faithful, plain, named, describes, idle⟩ := regular
  obtain ⟨faithfulToo, plainToo, -, describesToo, idleToo⟩ := regularToo
  have starts := one.stage_zero_disk correct world
  have startsToo := two.stage_zero_disk correct next
  have first := stage_one_alters faithful plain correct
  have firstToo := stage_one_alters faithfulToo plainToo correct
  have second := stage_two_alters faithful plain correct
  have secondToo := stage_two_alters faithfulToo plainToo correct
  have third := stage_three_same idle correct world
  have thirdToo := stage_three_same idleToo correct next
  have plainZero : (one.stage correct world 0).disk.tree.Plain := by rwa [starts]
  have plainZeroToo : (two.stage correct next 0).disk.tree.Plain := by rwa [startsToo]
  rw [← startsToo, ← starts] at locks same
  obtain ⟨agreeOne, pairing⟩ := agree_pairing faithful faithfulToo layouts plainZero plainZeroToo
    correct (by rwa [starts]) same locks
  rw [← stage_one_disk, ← stage_one_disk] at agreeOne
  rw [startsToo, starts, ← firstToo.locked, ← first.locked] at locks
  -- from here on the trees may differ at the locations set apart
  obtain ⟨agreeTwo, licenses⟩ := agree_licenses faithful faithfulToo layouts (first.plain plain)
    (firstToo.plain plainToo) agreeOne correct locks
  rw [← stage_two_disk, ← stage_two_disk, ← third, ← thirdToo] at agreeTwo
  have plainThree : (one.stage correct world 3).disk.tree.Plain := by
    rw [third]
    exact second.plain (first.plain plain)
  have plainThreeToo : (two.stage correct next 3).disk.tree.Plain := by
    rw [thirdToo]
    exact secondToo.plain (firstToo.plain plainToo)
  obtain ⟨agreeThree, formats⟩ := agree_formats faithful faithfulToo layouts plainThree
    plainThreeToo agreeTwo correct available (by rwa [third, second.locked, first.locked])
    (by rwa [thirdToo, secondToo.locked, firstToo.locked]) conducts
  rw [← stage_four_disk, ← stage_four_disk, ← run_disk, ← run_disk] at agreeThree
  exact ⟨agreeThree, pairing, licenses, formats⟩

end Inspection
end Guideline
end BuildWarden
