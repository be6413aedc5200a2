import BuildWarden.Proofs.Guideline.LicenseRewrite
import BuildWarden.Proofs.Guideline.Visit
import BuildWarden.Proofs.Text.Fragments
/-!
# Licences that are written once

An old header is also described by splitting a content at every end of a header and joining all
fragments but the first one again. This keeps the same bytes as looking for the first end. A file
with the licence in front is left as it is by every check of licences that follows, however the
sources are listed and whatever else is corrected.
-/

namespace BuildWarden.Guideline

open Text.Utf8 (encode)

variable {content : Bytes} {place : Location}

/-! ### What is kept -/

/-- What is kept of a content that is split at the ends of headers: everything if that is one
fragment, and otherwise the fragments behind the first one, joined again. -/
def keptBySplit (content : Bytes) : Bytes :=
  match Text.fragments headerEnd content with
  | [_] => content
  | fragments => headerEnd.intercalate fragments.tail

private theorem withoutHeader_eq_keptBySplit (content : Bytes) :
    withoutHeader content = keptBySplit content := by
  have some : headerEnd ≠ [] := by decide
  unfold keptBySplit
  rcases Text.absent_or_firstPart headerEnd content with absent | ⟨front, rest, occurs⟩
  · rw [withoutHeader_of_absent absent, Text.fragments_of_absent absent]
  · obtain ⟨first, others, shape⟩ := Text.exists_fragments_eq_cons headerEnd rest
    have again := Text.intercalate_fragments some rest
    rw [shape] at again
    rw [withoutHeader_of_firstPart occurs, occurs.fragments_eq some, shape]
    exact again.symm

private theorem keptBySplit_suffix (content : Bytes) : keptBySplit content <:+ content := by
  rw [← withoutHeader_eq_keptBySplit]
  rcases Text.absent_or_firstPart headerEnd content with absent | ⟨front, rest, occurs⟩
  · exact ⟨[], withoutHeader_of_absent absent⟩
  · rw [withoutHeader_of_firstPart occurs, occurs.split, ← List.append_assoc]
    exact List.suffix_append _ rest

/-! ### What later checks leave -/

private theorem exists_at?_of_contentAt {disk : Disk} (reads : contentAt disk place = .ok content) :
    ∃ executable, disk.tree.at? place = some (.leaf (.file content executable)) := by
  unfold contentAt at reads
  split at reads
  next item stands =>
    rcases item with (⟨bytes, executable⟩ | target) | inside
    · cases reads
      exact ⟨executable, stands⟩
    · cases reads
    · cases reads
  next => cases reads

/-- A file with its licence, on a well-formed disk. -/
structure Licensed (place : Location) (content : Bytes) (disk : Disk) : Prop where
  formed : disk.tree.Formed fun _ => True
  present : disk.tree.aspect? place = some (.file content)
  licensed : hasLicense content = true

section Examine
variable {settings : Console.Settings} {layout : Layout} {correct : Bool} {file : SourceFile}
  {world : World}

/-- A file with its licence passes. -/
theorem Licensed.examineLicense_eq (licensed : Licensed file.location content world.disk) :
    examineLicense settings layout correct file world = (.fine, world) := by
  unfold examineLicense
  simp only [contentAt_of_aspect? licensed.present, licensed.licensed, ↓reduceIte, ite_self]

/-- What is made of another file leaves a file with its licence. -/
theorem Licensed.rewritten {disk : Disk} {other : Location} {old new : Bytes} {executable : Bool}
    (licensed : Licensed place content disk)
    (stands : disk.tree.at? other = some (.leaf (.file old executable)))
    (lacks : ¬hasLicense old = true) :
    Licensed place content
      { disk with tree := disk.tree.put other (.leaf (.file new executable)) } where
  formed := licensed.formed.put (licensed.formed.of_at? stands).1 trivial
  present := by
    have different : other ≠ place := by
      rintro rfl
      have present := licensed.present
      rw [Tree.aspect?, stands] at present
      cases present
      exact lacks licensed.licensed
    rw [Disk.aspect?_rewritten new stands, if_neg different]
    exact licensed.present
  licensed := licensed.licensed

private theorem Licensed.examined (licensed : Licensed place content world.disk) :
    Licensed place content (examineLicense settings layout correct file world).2.disk := by
  unfold examineLicense
  dsimp only
  split
  · exact licensed
  split
  next fault unread => rwa [World.say_disk]
  next old reads =>
    obtain ⟨executable, stands⟩ := exists_at?_of_contentAt reads
    rw [SourceFile.writeIn_of_at? licensed.formed stands]
    split
    · exact licensed
    next lacks =>
      split
      · by_cases shut : world.disk.locked file.location = true
        · rw [if_pos shut]
          rwa [World.say_disk]
        · rw [if_neg shut]
          dsimp only
          rw [World.say_disk]
          exact licensed.rewritten stands lacks
      · rwa [World.say_disk]

end Examine

/-- A check of licences: the switches of the console, where sources lie, the order of each listing,
and whether it corrects. -/
structure LicenseCheck where
  settings : Console.Settings := {}
  layout : Layout := {}
  listing : SourceKind → Listing := fun _ => id
  correct : Bool := false

namespace LicenseCheck

/-- The sources that the check visits. -/
def visits (check : LicenseCheck) (world : World) : List Visit :=
  visitKinds (examineLicense check.settings check.layout check.correct) check.layout check.listing
    SourceKind.all world

/-- What the check leaves. -/
def leaves (check : LicenseCheck) (world : World) : World :=
  (checkLicense check.settings check.layout check.listing check.correct world).2

end LicenseCheck

/-- The visits of checks one after the other. -/
def laterVisits : List LicenseCheck → World → List Visit
  | [], _ => []
  | check :: rest, world => check.visits world ++ laterVisits rest (check.leaves world)

section Later
variable {check : LicenseCheck} {checks : List LicenseCheck} {world : World} {visit : Visit}

private theorem Licensed.leaves (licensed : Licensed place content world.disk) :
    Licensed place content (check.leaves world).disk := by
  have step (file : SourceFile) (between : World)
      (licensed : Licensed place content between.disk) :
      Licensed place content
        (examineLicense check.settings check.layout check.correct file between).2.disk :=
    licensed.examined
  unfold LicenseCheck.leaves checkLicense
  exact kept_examineKinds (fun world => Licensed place content world.disk) step licensed

/-- A check passes over a file with its licence. -/
theorem Licensed.passes (licensed : Licensed place content world.disk)
    (member : visit ∈ check.visits world) (there : visit.file.location = place) :
    visit.outcome = .fine ∧ visit.printed = [] := by
  obtain ⟨between, kept, same⟩ :=
    exists_visitKinds (fun world => Licensed place content world.disk)
      (fun _ _ licensed => licensed.examined) licensed member
  rw [← there] at kept
  rw [same, visitOne, kept.examineLicense_eq]
  exact ⟨rfl, List.drop_length⟩

/-- **A file with its licence is never flagged**, however often licences are checked. -/
theorem Licensed.never_flagged (licensed : Licensed place content world.disk)
    (member : visit ∈ laterVisits checks world) (there : visit.file.location = place) :
    visit.outcome = .fine ∧ visit.printed = [] := by
  induction checks generalizing world with
  | nil => cases member
  | cons check rest ih =>
      rw [laterVisits, List.mem_append] at member
      rcases member with here | later
      · exact licensed.passes here there
      · exact ih licensed.leaves later

end Later

/-! ### What is written -/

section File
variable {disk : Disk} {path : String} {executable : Bool}

/-- **A licence is written in front of what splitting keeps.** The content is split at every end of
a header: no fragment holds one, and joined they are the content again. What is kept is the end of
the old content, byte for byte, and the file names its licence, so no later check flags it. -/
theorem addLicense_keeps_fragments (formed : disk.tree.Formed fun _ => True)
    (leads : disk.open? path = .ok (place, .leaf (.file content executable)))
    (unlocked : disk.locked place = false) :
    ∃ after, addLicense disk path = .ok after ∧
      after.read path = .ok (encode licenseTemplate ++ keptBySplit content) ∧
      (headerEnd.intercalate (Text.fragments headerEnd content) = content ∧
        ∀ fragment ∈ Text.fragments headerEnd content, ¬headerEnd <:+: fragment) ∧
      keptBySplit content <:+ content ∧
      fileHasLicense after path = .ok true ∧
      ∀ (world : World) (checks : List LicenseCheck), world.disk = after →
        ∀ visit ∈ laterVisits checks world, visit.file.location = place →
          visit.outcome = .fine ∧ visit.printed = [] := by
  have some : headerEnd ≠ [] := by decide
  have present := Disk.at?_of_locate (Disk.open?_eq_ok.mp leads)
  obtain ⟨after, wrote, reads, -⟩ := exists_addLicense leads unlocked
  obtain rfl : { disk with
      tree := disk.tree.put place (.leaf (.file (withLicense content) executable)) } = after := by
    rw [addLicense, Disk.read_of_open? leads] at wrote
    have written := (Disk.write_of_open? leads (withLicense content)).symm.trans wrote
    rw [unlocked] at written
    exact Except.ok.inj written
  have licensed : Licensed place (withLicense content)
      { disk with tree := disk.tree.put place (.leaf (.file (withLicense content) executable)) } :=
    { formed := formed.put (formed.of_at? present).1 trivial
      present := by rw [Disk.aspect?_rewritten _ present, if_pos rfl]
      licensed := hasLicense_withLicense content }
  refine ⟨_, wrote, ?_, ⟨Text.intercalate_fragments some content, fun fragment member =>
    Text.not_infix_of_mem_fragments some member⟩, keptBySplit_suffix content, ?_, ?_⟩
  · rw [reads, withLicense, withoutHeader_eq_keptBySplit]
  · rw [fileHasLicense, reads]
    exact congrArg Except.ok (hasLicense_withLicense content)
  · rintro world checks starts visit member there
    rw [← starts] at licensed
    exact licensed.never_flagged member there

end File

/-- Of bytes that are no text, what follows the first end of a header is kept with other ends. -/
theorem addLicense_keeps_fragments_of_bytes :
    let content := [0xFF] ++ headerEnd ++ [0xFE] ++ headerEnd ++ headerEnd
    let old : Disk :=
      { tree := .dir "src" (.dir "agrum" (.leaf "a.cpp" (.file content false) .empty) .empty)
          .empty }
    ∃ after, addLicense old "src/agrum/a.cpp" = .ok after ∧
      after.read "src/agrum/a.cpp" =
        .ok (encode licenseTemplate ++ ([0xFE] ++ headerEnd ++ headerEnd)) ∧
      ∀ visit ∈ laterVisits [{ correct := true }, {}] { disk := after },
        visit.file.location = ["src", "agrum", "a.cpp"] →
          visit.outcome = .fine ∧ visit.printed = [] := by
  intro content old
  have formed : old.tree.Formed fun _ => True := by decide
  have steps : Disk.steps "src/agrum/a.cpp" = ["src", "agrum", "a.cpp"] := by decide
  have relative : Path.isAbsolute "src/agrum/a.cpp" = false := by decide
  have leads : old.open? "src/agrum/a.cpp" =
      .ok (["src", "agrum", "a.cpp"], .leaf (.file content false)) := by
    simp [old, Disk.open?, Disk.locate, Disk.locateFrom, steps, relative, Disk.follow, Tree.at?,
      Tree.find?]
  have kept : keptBySplit content = [0xFE] ++ headerEnd ++ headerEnd := by decide
  obtain ⟨after, wrote, reads, -, -, -, later⟩ := addLicense_keeps_fragments formed leads rfl
  rw [kept] at reads
  exact ⟨after, wrote, reads, later _ _ rfl⟩

end BuildWarden.Guideline
