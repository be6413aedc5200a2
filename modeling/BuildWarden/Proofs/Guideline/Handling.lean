import BuildWarden.Proofs.Guideline.Format
import BuildWarden.Proofs.Guideline.Pairing
import BuildWarden.Proofs.Guideline.Treatment
/-!
# How the checks treat sources

Each of the three checks of sources decides by what stands at one location. For licences and formats
that is the source itself, and a `Handling` says what is done to its content; for pairing it is the
place of the unit. Of a formatter it is asked only that it decides from one file and touches no
other: its failures may leave the file changed.
-/

namespace BuildWarden.Guideline

open Text.Utf8 (encode decodeLenient)

/-- How a check judges the content of a source and what a correction makes of it. -/
structure Handling where
  flags : SourceFile → Bytes → Bool
  /-- Whether a correction succeeds -/
  succeeds : SourceFile → Bytes → Bool
  /-- What a correction leaves, also one that failed -/
  leaves : SourceFile → Bytes → Bytes

/-- What a check makes of a source that is handled so. -/
def Handling.treatment (handling : Handling) (correct : Bool) :
    Treatment SourceFile.location where
  outcome file
    | some (.file content) =>
      if handling.flags file content then .violation (correct && handling.succeeds file content)
      else .fine
    | _ => .fine
  leaves file
    | some (.file content) =>
      some (.file
        (if correct && handling.flags file content then handling.leaves file content else content))
    | found => found

/-- What a treatment leaves of a content: what the handling leaves if the source is flagged and may
be corrected. -/
theorem Handling.treatment_leaves (handling : Handling) (correct : Bool) (file : SourceFile)
    (content : Bytes) :
    (handling.treatment correct).leaves file (some (.file content)) =
      some (.file (if correct && handling.flags file content then handling.leaves file content
        else content)) :=
  rfl

section Treated
variable {handling : Handling} {file : SourceFile} {before after : Disk} {content : Bytes}
  {correct : Bool} (present : before.tree.aspect? file.location = some (.file content))
include present

private theorem Handling.follows_fine (calm : handling.flags file content = false) :
    (handling.treatment correct).Follows file before .fine before where
  decides := by simp [treatment, present, calm]
  leaves := by simp [treatment, present, calm]
  alters := .refl _ _

private theorem Handling.follows_told (flagged : handling.flags file content = true) :
    (handling.treatment false).Follows file before (.violation false) before where
  decides := by simp [treatment, present, flagged]
  leaves := by simp [treatment, present]
  alters := .refl _ _

private theorem Handling.follows_tried (flagged : handling.flags file content = true)
    (left : after.tree.aspect? file.location = some (.file (handling.leaves file content)))
    (alters : before.Alters (· = file.location) after) :
    (handling.treatment true).Follows file before (.violation (handling.succeeds file content))
      after where
  decides := by simp [treatment, present, flagged]
  leaves := by simp [treatment, present, flagged, left]
  alters := alters

end Treated

/-! ### Licences -/

/-- How an amendment handles sources. -/
def Amendment.handling (amendment : Amendment) (excepted : SourceFile → Bool) : Handling where
  flags file content := !excepted file && amendment.flags file.location content
  succeeds file content := (amendment.mend? file.location content).isSome
  leaves file content := (amendment.mend? file.location content).getD content

/-- A source that is treated as an amendment says is handled so. -/
theorem Amendment.Treats.follows {amendment : Amendment} {excepted : SourceFile → Bool}
    {correct : Bool} {file : SourceFile} {disk after : Disk} {outcome : Outcome}
    (treats : amendment.Treats excepted correct file disk outcome after)
    (stands : file.Stands disk) (plain : disk.tree.Plain) :
    ((amendment.handling excepted).treatment correct).Follows file disk outcome after := by
  obtain ⟨content, present⟩ := stands.aspect?
  have flags : (amendment.handling excepted).flags file content =
      amendment.finds excepted file disk := by
    simp [handling, finds, present]
  cases treats with
  | fine unseen => exact Handling.follows_fine present (flags.trans unseen)
  | left content' seen there hopeless =>
      rw [present] at there
      cases there
      cases correct with
      | false => exact Handling.follows_told present (flags.trans seen)
      | true =>
          have none := hopeless rfl
          have failed : (amendment.handling excepted).succeeds file content = false := by
            simp [handling, none]
          have tried := Handling.follows_tried present (flags.trans seen)
            (by simp [handling, none, present]) (.refl _ disk)
          rwa [failed] at tried
  | mended content' mended executable allowed seen there replaces =>
      rw [present] at there
      cases there
      subst allowed
      have worked : (amendment.handling excepted).succeeds file content = true := by
        simp [handling, replaces]
      have tried := Handling.follows_tried present (flags.trans seen)
        (by simp [handling, replaces, aspect?_replaced stands plain])
        (alters_replaced stands plain executable mended)
      rwa [worked] at tried

/-- How the licence check handles sources. -/
def licenseHandling (layout : Layout) (locked : Location → Bool) : Handling :=
  (licensing locked).handling (unlicensed layout)

/-- The licence check treats sources as their handling says. -/
theorem examineLicense_governed (settings : Console.Settings) (layout : Layout)
    (locked : Location → Bool) (correct : Bool) :
    ((licenseHandling layout locked).treatment correct).Governs layout locked
      (examineLicense settings layout correct) :=
  fun _ _ fixed plain source =>
    (examineLicense_treats settings layout correct fixed source.2 plain).follows source.2 plain

/-! ### Formats -/

/-- What a formatter does to a file, by its path and content. -/
structure FormatterConduct where
  /-- The text that the file should have, if it can be reformatted -/
  text? : SourceFile → Bytes → Option String
  /-- Whether the file can be rewritten -/
  succeeds : SourceFile → Bytes → Bool
  /-- What the file holds once it was to be rewritten, also if that failed -/
  leaves : SourceFile → Bytes → Bytes

/-- A formatter that decides from one file, as the conduct says, and touches that file only, for the
library sources of every disk with the given locked files. -/
structure FormatterConduct.Describes (conduct : FormatterConduct) (formatter : Formatter)
    (layout : Layout) (locked : Location → Bool) : Prop where
  reformats : ∀ file world content, world.disk.locked = locked → world.disk.tree.Plain →
    IsLibrarySource layout file world.disk →
    world.disk.tree.aspect? file.location = some (.file content) →
      (formatter.reformat file world).1.toOption = conduct.text? file content ∧
        (formatter.reformat file world).2.disk = world.disk
  applies : ∀ file world content, world.disk.locked = locked → world.disk.tree.Plain →
    IsLibrarySource layout file world.disk →
    world.disk.tree.aspect? file.location = some (.file content) →
      (formatter.apply file world).1.isOk = conduct.succeeds file content ∧
        (formatter.apply file world).2.disk.tree.aspect? file.location =
          some (.file (conduct.leaves file content)) ∧
        world.disk.Alters (· = file.location) (formatter.apply file world).2.disk

/-- How the format check handles sources with a formatter of this conduct. -/
def FormatterConduct.handling (conduct : FormatterConduct) (layout : Layout) : Handling where
  flags file content :=
    !unformatted layout file && (conduct.text? file content).any (decodeLenient content != ·)
  succeeds := conduct.succeeds
  leaves := conduct.leaves

/-- The format check treats sources as the conduct of its formatter says. -/
theorem examineFormat_governed {conduct : FormatterConduct} {formatter : Formatter}
    {layout : Layout} {locked : Location → Bool}
    (describes : conduct.Describes formatter layout locked) (settings : Console.Settings)
    (correct : Bool) :
    ((conduct.handling layout).treatment correct).Governs layout locked
      (examineFormat settings layout formatter correct) := by
  intro file world fixed plain source
  obtain ⟨content, present⟩ := source.2.aspect?
  have flags : (conduct.handling layout).flags file content =
      readsOtherwise layout file content (conduct.text? file content) := by
    rw [FormatterConduct.handling, readsOtherwise]
  obtain ⟨answers, same⟩ := describes.reformats file world content fixed plain source present
  have turn := examineFormat_turn settings layout correct present answers same
  generalize (examineFormat settings layout formatter correct file world).1 = outcome at turn ⊢
  generalize (examineFormat settings layout formatter correct file world).2.disk = after at turn ⊢
  cases turn with
  | fine calm => exact Handling.follows_fine present (flags.trans calm)
  | told calm differs =>
      subst calm
      exact Handling.follows_told present (flags.trans differs)
  | @tried text between allowed differs _ same =>
      subst allowed
      -- the formatter is applied in the world that it left when it was asked
      rw [← same] at fixed plain source present ⊢
      obtain ⟨ends, left, alters⟩ :=
        describes.applies file between content fixed plain source present
      rw [ends]
      exact Handling.follows_tried present (flags.trans differs) left alters

/-- What the formatter does that leaves texts as they are. -/
def leavingTextsConduct (locked : Location → Bool) : FormatterConduct where
  text? _ content :=
    if encode (decodeLenient content) = content then some (decodeLenient content) else none
  succeeds file _ := !locked file.location
  leaves file content := if locked file.location then content else encode (decodeLenient content)

/-- The formatter that leaves texts is described by its conduct. -/
theorem leavingTexts_described (layout : Layout) (locked : Location → Bool) :
    (leavingTextsConduct locked).Describes textLeaver layout locked where
  reformats := by
    intro file world content _ _ source present
    obtain ⟨content', executable, leads⟩ := source.2
    rw [Tree.aspect?, Disk.at?_of_locate (Disk.open?_eq_ok.mp leads)] at present
    cases present
    simp only [textLeaver, leavingTextsConduct, Disk.read_of_open? leads]
    split
    · exact ⟨rfl, rfl⟩
    · exact ⟨rfl, rfl⟩
  applies := by
    rintro file world content rfl plain source present
    obtain ⟨content', executable, leads⟩ := source.2
    have stood := present
    rw [Tree.aspect?, Disk.at?_of_locate (Disk.open?_eq_ok.mp leads)] at stood
    cases stood
    by_cases shut : world.disk.locked file.location = true
    · simp only [textLeaver, leavingTextsConduct, Disk.read_of_open? leads,
        Disk.write_of_open? leads, shut, ↓reduceIte]
      exact ⟨rfl, present, .refl _ _⟩
    · simp only [textLeaver, leavingTextsConduct, Disk.read_of_open? leads,
        Disk.write_of_open? leads, shut, Bool.false_eq_true, ↓reduceIte]
      refine ⟨rfl, ?_, Amendment.alters_replaced source.2 plain executable _⟩
      rw [Amendment.aspect?_replaced source.2 plain, if_pos rfl]

/-! ### Units -/

/-- What the pairing check makes of a header and of the place of its unit. -/
def pairingTreatment (layout : Layout) (locked : Location → Bool) (correct : Bool) :
    Treatment unitPlace where
  outcome header found :=
    if needsUnit layout header then
      match found with
      | some (.file _) => .fine
      | _ => .violation (correct && found.isNone && !locked (unitPlace header))
    else .fine
  leaves header found :=
    if needsUnit layout header && correct && found.isNone && !locked (unitPlace header) then
      some (.file (encode (unitText layout header)))
    else found

section Header
variable {layout : Layout} {locked : Location → Bool} {header : SourceFile} {correct : Bool}
  {found : Option Aspect}

private theorem pairingTreatment_missing (needed : needsUnit layout header = true)
    (absent : ∀ content, found ≠ some (.file content)) :
    (pairingTreatment layout locked correct).outcome header found =
      .violation (correct && found.isNone && !locked (unitPlace header)) := by
  simp only [pairingTreatment, needed, ↓reduceIte]

private theorem pairingTreatment_paired
    (paired : needsUnit layout header = true → ∃ content, found = some (.file content)) :
    (pairingTreatment layout locked correct).outcome header found = .fine ∧
      (pairingTreatment layout locked correct).leaves header found = found := by
  by_cases needed : needsUnit layout header = true
  · obtain ⟨content, rfl⟩ := paired needed
    simp [pairingTreatment]
  · simp [pairingTreatment, needed]

end Header

private theorem Amendment.outline?_eq_file {disk : Disk} {location : Location} :
    disk.tree.outline? location = some .file ↔
      ∃ content, disk.tree.aspect? location = some (.file content) :=
  ⟨aspect?_of_outline?, fun ⟨_, present⟩ => outline?_of_aspect? present⟩

/-- The pairing check treats headers by what stands at the place of their unit. -/
theorem examinePairing_governed (settings : Console.Settings) (layout : Layout)
    (locked : Location → Bool) (correct : Bool) :
    (pairingTreatment layout locked correct).Governs layout locked
      (examinePairing settings layout correct) := by
  intro header world fixed plain source
  obtain ⟨spelled, -⟩ := source.2.directory plain
  have missing : unpaired layout header world.disk = true ↔ _ := unpaired_iff plain source.2
  have pairs : Pairs layout correct header world.disk _ _ :=
    examinePairing_pairs settings plain source.2
  generalize (examinePairing settings layout correct header world).1 = outcome at pairs ⊢
  generalize (examinePairing settings layout correct header world).2.disk = after at pairs ⊢
  cases pairs with
  | fine paired =>
      rw [← Bool.not_eq_true, missing, not_and_not_right, Amendment.outline?_eq_file] at paired
      obtain ⟨calm, kept⟩ := pairingTreatment_paired paired
      exact ⟨calm.symm, kept.symm, .refl _ _⟩
  -- without a correction, and where a directory or a lock is in the way
  | left unpaired hopeless =>
      obtain ⟨needed, absent⟩ := missing.mp unpaired
      rw [ne_eq, Amendment.outline?_eq_file, not_exists] at absent
      have refused :
          (correct && (world.disk.tree.aspect? (unitPlace header)).isNone &&
            !locked (unitPlace header)) = false := by
        cases correct with
        | false => rfl
        | true =>
            rcases hopeless rfl with dir | ⟨-, shut⟩
            · obtain ⟨aspect, there, -⟩ := Option.map_eq_some_iff.mp dir
              simp [there]
            · rw [fixed] at shut
              simp [shut]
      refine ⟨?_, ?_, .refl _ _⟩
      · rw [pairingTreatment_missing needed absent, refused]
      · simp only [pairingTreatment, Bool.and_assoc] at refused ⊢
        rw [refused, Bool.and_false, if_neg Bool.false_ne_true]
  | made inside allowed unpaired present free unlocked =>
      obtain ⟨needed, absent⟩ := missing.mp unpaired
      rw [ne_eq, Amendment.outline?_eq_file, not_exists] at absent
      have vacant := aspect?_unitPlace_eq_none present free
      have alters := Disk.alters_put_new plain present free (isName_unitName spelled)
        (encode (unitText layout header))
      rw [fixed] at unlocked
      refine ⟨?_, ?_, alters⟩
      · rw [pairingTreatment_missing needed absent, vacant, unlocked, allowed]
        rfl
      · dsimp only
        rw [aspect?_put_unit present free]
        simp [pairingTreatment, needed, allowed, vacant, unlocked]

end BuildWarden.Guideline
