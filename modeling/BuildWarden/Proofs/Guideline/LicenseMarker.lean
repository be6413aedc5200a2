import BuildWarden.Guideline.License
import BuildWarden.Proofs.Text.Lenient
import BuildWarden.Proofs.Text.Parts
import BuildWarden.Proofs.Tree.Rewriting
/-!
# Where a licence is recognised

The first lines of a source are decoded before the marker is looked for, and a source need not be
well formed. This changes nothing: a source names its licence exactly if the bytes of the marker
stand together in one of its first lines. A line feed at the end of the last line does not matter.
-/

namespace BuildWarden.Guideline

open Text.Utf8 (encode)

variable {part content : Bytes}

/-- Nothing is found in the empty piece behind a line feed at the end, so it does not matter that it
is no line. -/
theorem infix_leadingLines_iff (some : part ≠ []) (whole : lineFeed ∉ part) (count : Nat)
    (content : Bytes) :
    part <:+: leadingLines count content ↔
      ∃ piece ∈ (List.splitOn lineFeed content).take count, part <:+: piece := by
  unfold leadingLines
  dsimp only
  rw [Text.infix_flatMap_ended_iff some whole]
  split
  next ended =>
    obtain ⟨lines, split⟩ := List.getLast?_eq_some_iff.mp ended
    have nowhere : ∀ piece ∈ [([] : Bytes)].take (count - lines.length), ¬part <:+: piece := by
      intro piece member inside
      obtain rfl := List.mem_singleton.mp (List.mem_of_mem_take member)
      exact some (List.infix_nil.mp inside)
    rw [split, List.dropLast_concat, List.take_append]
    constructor
    · intro found
      obtain ⟨piece, member, inside⟩ := found
      exact ⟨piece, List.mem_append_left _ member, inside⟩
    · intro found
      obtain ⟨piece, member, inside⟩ := found
      rcases List.mem_append.mp member with member | member
      · exact ⟨piece, member, inside⟩
      · exact (nowhere piece member inside).elim
  next => rfl

/-- **A licence is recognised by its bytes**: the marker stands in one of the first lines. -/
theorem hasLicense_iff (content : Bytes) :
    hasLicense content = true ↔
      ∃ line ∈ (List.splitOn lineFeed content).take licenseSearchLines,
        encode licenseMarker <:+: line := by
  have small : (licenseMarker.toList.all fun c => decide (c.toNat < 0x80)) = true := by decide
  have ascii : ∀ c ∈ licenseMarker.toList, c.toNat < 0x80 := fun c member =>
    of_decide_eq_true (List.all_eq_true.mp small c member)
  have whole : lineFeed ∉ encode licenseMarker := by decide
  have some : encode licenseMarker ≠ [] := by decide
  rw [hasLicense, Text.Utf8.contains_decodeLenient_iff ascii, infix_leadingLines_iff some whole]

/-- **What a file has to hold for its licence to be recognised.** Every file that can be read is
judged, whatever bytes it consists of. -/
theorem fileHasLicense_iff {disk : Disk} {path : String} (reads : disk.read path = .ok content) :
    ∃ answer, fileHasLicense disk path = .ok answer ∧
      (answer = true ↔ ∃ line ∈ (List.splitOn 0x0A content).take 40,
        encode "GNU Lesser General Public License" <:+: line) := by
  refine ⟨hasLicense content, ?_, hasLicense_iff content⟩
  rw [fileHasLicense, reads]
  rfl

/-- The marker counts on line forty, between a character that is broken off and a byte that starts
none, and no longer counts on the next line. -/
theorem fileHasLicense_iff_line_forty :
    let marked := [0xE2, 0x82] ++ encode "GNU Lesser General Public License" ++ [0xFF]
    let source (lines : Nat) : Disk :=
      { tree := .leaf "a.cpp" (.file (List.replicate lines 0x0A ++ marked) false) .empty }
    fileHasLicense (source 39) "a.cpp" = .ok true ∧
      fileHasLicense (source 40) "a.cpp" = .ok false := by
  intro marked source
  have reads (lines : Nat) :
      (source lines).read "a.cpp" = .ok (List.replicate lines 0x0A ++ marked) :=
    Disk.read_of_open? (Disk.open?_only (by decide) _ false)
  obtain ⟨answer, judged, exact⟩ := fileHasLicense_iff (reads 39)
  obtain ⟨answer', judged', exact'⟩ := fileHasLicense_iff (reads 40)
  have found : answer = true := exact.mpr (by decide +kernel)
  have lost : ¬answer' = true := fun answered => absurd (exact'.mp answered) (by decide +kernel)
  rw [judged, judged', found, Bool.not_eq_true _ |>.mp lost]
  exact ⟨rfl, rfl⟩

end BuildWarden.Guideline
