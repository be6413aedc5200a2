import BuildWarden.Guideline.License
import BuildWarden.Proofs.Guideline.Amendment
import BuildWarden.Proofs.Text.Search
import BuildWarden.Proofs.Text.Utf8
import BuildWarden.Proofs.World
/-!
# Licences that stay

Whatever bytes a content consists of, it names its licence once the licence was written in front of
it. So writing licences is an amendment that settles: a check leaves only the files that cannot be
written.
-/

namespace BuildWarden.Guideline

open Text.Utf8 (encode encode_append decodeLenient)

/-- The first lines of a content are all there if they are not more than those that are asked
for. -/
theorem leadingLines_append {count : Nat} {front : Bytes}
    (few : (List.splitOn lineFeed front).length ≤ count) (back : Bytes) :
    ∃ more, leadingLines count (front ++ lineFeed :: back) = front ++ lineFeed :: more := by
  have ends : (List.splitOn lineFeed front ++ List.splitOn lineFeed back).getLast? =
      (List.splitOn lineFeed back).getLast? :=
    List.getLast?_append_of_ne_nil _ (List.splitOn_ne_nil lineFeed back)
  have drops : (List.splitOn lineFeed front ++ List.splitOn lineFeed back).dropLast =
      List.splitOn lineFeed front ++ (List.splitOn lineFeed back).dropLast :=
    List.dropLast_append_of_ne_nil (List.splitOn_ne_nil lineFeed back)
  have taken (others : List Bytes) :
      ∃ more, ((List.splitOn lineFeed front ++ others).take count).flatMap (· ++ [lineFeed]) =
        front ++ lineFeed :: more := by
    refine ⟨(others.take (count - (List.splitOn lineFeed front).length)).flatMap
      (· ++ [lineFeed]), ?_⟩
    rw [List.take_append, List.take_of_length_le few, List.flatMap_append, Text.flatMap_splitOn,
      List.append_assoc]
    rfl
  simp only [leadingLines, List.splitOn_append_cons_self, ends, drops]
  split
  · exact taken _
  · exact taken _

private theorem encode_joined (lines : List String) :
    encode (Text.joined "\n" lines) = [lineFeed].intercalate (lines.map encode) := by
  have ends : encode "\n" = [lineFeed] := by decide
  unfold Text.joined
  induction lines with
  | nil => rfl
  | cons line rest ih =>
      cases rest with
      | nil => simp
      | cons next rest =>
          rw [String.intercalate_cons_cons, encode_append, encode_append, ih, ends, List.map_cons,
            List.map_cons, List.map_cons, List.intercalate_cons_cons]

/-- The letters of joined lines, with a line feed between two lines. -/
theorem toList_joined (lines : List String) :
    (Text.joined "\n" lines).toList = ['\n'].intercalate (lines.map String.toList) :=
  String.toList_intercalate

/-- The lines of a text whose lines have no line feed inside. -/
theorem pieces_joined {lines : List String} (some : lines ≠ [])
    (whole : ∀ line ∈ lines, lineFeed ∉ encode line) :
    List.splitOn lineFeed (encode (Text.joined "\n" lines)) = lines.map encode := by
  rw [encode_joined, List.splitOn_intercalate]
  · simpa using whole
  · rwa [ne_eq, List.map_eq_nil_iff]

/-- The lines of the licence up to the one with the marker. -/
def markedLines : List String :=
  licenseLines.take 8

private theorem licenseTemplate_eq :
    licenseTemplate =
      Text.joined "\n" markedLines ++ "\n" ++ Text.joined "\n" (licenseLines.drop 8) := by
  have split : licenseLines = markedLines ++ licenseLines.drop 8 :=
    (List.take_append_drop 8 licenseLines).symm
  rw [licenseTemplate, split, Text.joined, String.intercalate_append_of_ne_nil]
  · rfl
  · decide
  · decide

private theorem hasPart_markedLines :
    Text.hasPart licenseMarker.toList (Text.joined "\n" markedLines).toList = true := by
  have split : markedLines = licenseLines.take 7 ++
      [" *  it under the terms of the " ++ (licenseMarker ++ " as published by")] := rfl
  rw [split, Text.joined, String.intercalate_append_of_ne_nil (by decide) (by simp),
    String.intercalate_singleton, String.toList_append, String.toList_append, String.toList_append,
    ← List.append_assoc]
  exact Text.hasPart_append_right _ _ _

/-- **The licence in front makes every content name it.** -/
theorem hasLicense_template (content : Bytes) :
    hasLicense (encode licenseTemplate ++ content) = true := by
  have feed : encode "\n" = [lineFeed] := by decide
  have whole : ∀ line ∈ markedLines, lineFeed ∉ encode line := by decide +kernel
  have few : (List.splitOn lineFeed (encode (Text.joined "\n" markedLines))).length ≤
      licenseSearchLines := by
    rw [pieces_joined (by decide) whole]
    decide
  obtain ⟨more, leads⟩ := leadingLines_append few
    (encode (Text.joined "\n" (licenseLines.drop 8)) ++ content)
  unfold hasLicense Text.contains
  rw [licenseTemplate_eq, encode_append, encode_append, feed, List.append_assoc,
    List.append_assoc, List.singleton_append, leads, decodeLenient, String.toList_ofList,
    Text.Utf8.decodeLenientChars_encode_append]
  exact Text.hasPart_append_left hasPart_markedLines _

/-- **A source unit names its licence**, whatever it includes. -/
theorem hasLicense_unitFor (header : String) : hasLicense (encode (unitFor header)) = true := by
  rw [unitFor, encode_append, encode_append, encode_append, List.append_assoc, List.append_assoc]
  exact hasLicense_template _

/-- A content names its licence once it was written. -/
theorem hasLicense_withLicense (content : Bytes) : hasLicense (withLicense content) = true :=
  hasLicense_template (withoutHeader content)

/-! ### The check -/

/-- Writing the licence where it is missing and can be written. -/
def licensing (locked : Location → Bool) : Amendment where
  flags _ content := !hasLicense content
  mend? location content := if locked location then none else some (withLicense content)

/-- A content that was given its licence is not flagged again. -/
theorem licensing_settles (locked : Location → Bool) : (licensing locked).Settles := by
  intro location content mended replaces _
  simp only [licensing] at replaces ⊢
  split at replaces
  · cases replaces
  · obtain rfl : withLicense content = mended := Option.some.inj replaces
    rw [hasLicense_withLicense]
    rfl

/-- The sources that the licence check leaves alone. -/
def unlicensed (layout : Layout) (file : SourceFile) : Bool :=
  isExcepted (shownName layout file) licenseExceptions

/-- The content of a file can be read at its place. -/
theorem contentAt_of_aspect? {disk : Disk} {location : Location} {content : Bytes}
    (present : disk.tree.aspect? location = some (.file content)) :
    contentAt disk location = .ok content := by
  obtain ⟨item, stands, same⟩ := Option.map_eq_some_iff.mp present
  unfold contentAt
  rw [stands]
  rcases item with (⟨_, _⟩ | _) | _
  · cases same
    rfl
  · cases same
  · cases same

/-- **What becomes of a source in the licence check**: a licence is written where it is missing. -/
theorem examineLicense_treats (settings : Console.Settings) (layout : Layout) (correct : Bool)
    {file : SourceFile} {world : World} {locked : Location → Bool}
    (fixed : world.disk.locked = locked) (stands : file.Stands world.disk)
    (plain : world.disk.tree.Plain) :
    (licensing locked).Treats (unlicensed layout) correct file world.disk
      (examineLicense settings layout correct file world).1
      (examineLicense settings layout correct file world).2.disk := by
  obtain ⟨content, present⟩ := stands.aspect?
  have finds : (licensing locked).finds (unlicensed layout) file world.disk =
      (!unlicensed layout file && !hasLicense content) := by
    simp [Amendment.finds, present, licensing]
  unfold examineLicense
  by_cases spared : unlicensed layout file = true
  · have unseen : (licensing locked).finds (unlicensed layout) file world.disk = false := by
      rw [finds, spared]
      rfl
    rw [unlicensed] at spared
    simp only [spared, ↓reduceIte]
    exact .fine unseen
  have checked : isExcepted (shownName layout file) licenseExceptions = false := by
    simpa [unlicensed] using spared
  simp only [checked, Bool.false_eq_true, ↓reduceIte, contentAt_of_aspect? present]
  by_cases licensed : hasLicense content = true
  · have unseen : (licensing locked).finds (unlicensed layout) file world.disk = false := by
      rw [finds, licensed, Bool.not_true, Bool.and_false]
    simp only [licensed, ↓reduceIte]
    exact .fine unseen
  have seen : (licensing locked).finds (unlicensed layout) file world.disk = true := by
    simp [finds, unlicensed, checked, licensed]
  simp only [licensed, Bool.false_eq_true, ↓reduceIte]
  cases correct with
  | false =>
      simp only [Bool.false_eq_true, ↓reduceIte, World.say_disk]
      exact .left content seen present (by simp)
  | true =>
      obtain ⟨executable, written⟩ := stands.writeIn plain (withLicense content)
      have same := congrFun fixed file.location
      by_cases shut : locked file.location = true
      · rw [same, if_pos shut] at written
        simp only [↓reduceIte, written, World.say_disk]
        exact .left content seen present (fun _ => by simp [licensing, shut])
      · rw [same, if_neg shut] at written
        simp only [↓reduceIte, written, World.say_disk]
        exact .mended content (withLicense content) executable rfl seen present
          (by simp [licensing, shut])

/-- The licence check writes licences. -/
theorem licensing_performs (settings : Console.Settings) (layout : Layout) (start : Disk)
    (correct : Bool) :
    (licensing start.locked).Performs (unlicensed layout) layout start correct
      (examineLicense settings layout correct) :=
  fun _ _ reached plain listed =>
    examineLicense_treats settings layout correct reached.locked (listed.stands plain) plain

end BuildWarden.Guideline
