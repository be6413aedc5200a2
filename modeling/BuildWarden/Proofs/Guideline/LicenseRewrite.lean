import BuildWarden.Proofs.Guideline.License
import BuildWarden.Proofs.Tree.Rewriting
import BuildWarden.Text.Blank
/-!
# What writing a licence keeps

The licence is written in front of what follows the first end of a header comment, wherever that
stands; of a content without such an end nothing is lost. Whether the content opens with a comment
is not looked at, so an end of this kind further down takes the code before it along.
-/

namespace BuildWarden.Guideline

open Text.Utf8 (encode)

variable {content front rest : Bytes}

/-- The bytes at which an old header is taken to end. -/
def headerEnd : Bytes :=
  encode headerTerminator

/-- A content without the end of a header stays whole. -/
theorem withoutHeader_of_absent (absent : ¬headerEnd <:+: content) :
    withoutHeader content = content := by
  rw [withoutHeader, ← headerEnd, Text.afterPart?_eq_none.mpr absent, Option.getD_none]

/-- Otherwise what stands behind the first end is left. -/
theorem withoutHeader_of_firstPart (occurs : Text.FirstPart headerEnd front rest content) :
    withoutHeader content = rest := by
  rw [withoutHeader, ← headerEnd, occurs.afterPart?_eq, Option.getD_some]

/-- **Nothing is lost** exactly where no end of a header is in the content. -/
theorem withoutHeader_eq_self : withoutHeader content = content ↔ ¬headerEnd <:+: content := by
  refine ⟨fun same inside => ?_, withoutHeader_of_absent⟩
  have found : Text.afterPart? headerEnd content ≠ none := fun none =>
    Text.afterPart?_eq_none.mp none inside
  obtain ⟨rest, found⟩ := Option.ne_none_iff_exists'.mp found
  obtain ⟨front, occurs⟩ := Text.exists_firstPart found
  rw [withoutHeader_of_firstPart occurs] at same
  have lengths := congrArg List.length occurs.split
  have some : 0 < headerEnd.length := by decide
  simp only [List.length_append, same] at lengths
  omega

/-- A disk with one file, `a.cpp`. -/
def oneSource (content : String) : Disk where
  tree := .leaf "a.cpp" (.file (encode content) false) .empty

private theorem open?_oneSource (content : String) :
    (oneSource content).open? "a.cpp" = .ok (["a.cpp"], .leaf (.file (encode content) false)) :=
  Disk.open?_only (by decide) (encode content) false

section File
variable {disk : Disk} {path : String} {place : Location} {executable : Bool}

/-- A file gets the licence, and nothing else changes. -/
theorem exists_addLicense
    (leads : disk.open? path = .ok (place, .leaf (.file content executable)))
    (unlocked : disk.locked place = false) :
    ∃ after, addLicense disk path = .ok after ∧ after.read path = .ok (withLicense content) ∧
      ∀ other, other ≠ place → after.tree.aspect? other = disk.tree.aspect? other := by
  obtain ⟨after, wrote, reads, elsewhere⟩ := Disk.exists_write (withLicense content) leads unlocked
  refine ⟨after, ?_, reads, elsewhere⟩
  rw [addLicense, Disk.read_of_open? leads]
  exact wrote

/-- **What is written with a licence**: the licence, and what follows the first end of a header in
the old content, byte for byte. This is the whole content exactly if it holds no such end. -/
theorem addLicense_writes
    (leads : disk.open? path = .ok (place, .leaf (.file content executable)))
    (unlocked : disk.locked place = false) :
    ∃ after written, addLicense disk path = .ok after ∧ after.read path = .ok written ∧
      (∀ other, other ≠ place → after.tree.aspect? other = disk.tree.aspect? other) ∧
      (written = encode licenseTemplate ++ content ↔ ¬headerEnd <:+: content) ∧
      ∀ front rest, Text.FirstPart headerEnd front rest content →
        written = encode licenseTemplate ++ rest := by
  obtain ⟨after, wrote, reads, elsewhere⟩ := exists_addLicense leads unlocked
  refine ⟨after, withLicense content, wrote, reads, elsewhere, ?_, fun front rest occurs => ?_⟩
  · rw [withLicense, List.append_cancel_left_eq, withoutHeader_eq_self]
  · rw [withLicense, withoutHeader_of_firstPart occurs]

end File

/-- Only the first end of a header counts: the code between it and the next one stays. -/
theorem addLicense_writes_two_ends :
    let old := oneSource "/* old\n***********/\nint a;\n/***********/\n"
    ∃ after, addLicense old "a.cpp" = .ok after ∧
      after.read "a.cpp" = .ok (encode licenseTemplate ++ encode "\nint a;\n/***********/\n") := by
  intro old
  obtain ⟨after, written, wrote, reads, -, -, first⟩ :=
    addLicense_writes (open?_oneSource "/* old\n***********/\nint a;\n/***********/\n") rfl
  have found : Text.afterPart? headerEnd (encode "/* old\n***********/\nint a;\n/***********/\n") =
      some (encode "\nint a;\n/***********/\n") := by decide
  obtain ⟨front, occurs⟩ := Text.exists_firstPart found
  rw [first front _ occurs] at reads
  exact ⟨after, wrote, reads⟩

/-- The first bytes that are not blank open a comment. -/
def opensComment (content : Bytes) : Bool :=
  (encode "/*").isPrefixOf (content.dropWhile fun byte => Text.isBlank (Char.ofNat byte.toNat))

/-- Code without any header is lost in front of a rule of stars. -/
theorem addLicense_drops_code :
    let content := "int a;\n/***********/\nint b;\n"
    opensComment (encode content) = false ∧
      ∃ after, addLicense (oneSource content) "a.cpp" = .ok after ∧
        after.read "a.cpp" = .ok (encode licenseTemplate ++ encode "\nint b;\n") ∧
        after.read "a.cpp" ≠ .ok (encode licenseTemplate ++ encode content) := by
  intro content
  have found : Text.afterPart? headerEnd (encode content) = some (encode "\nint b;\n") := by decide
  obtain ⟨front, occurs⟩ := Text.exists_firstPart found
  obtain ⟨after, wrote, reads, -⟩ := exists_addLicense (open?_oneSource content) rfl
  rw [withLicense, withoutHeader_of_firstPart occurs] at reads
  refine ⟨by decide, after, wrote, reads, fun whole => ?_⟩
  rw [reads] at whole
  have kept : encode "\nint b;\n" = encode content :=
    List.append_cancel_left (Except.ok.inj whole)
  exact absurd kept (by decide)

end BuildWarden.Guideline
