import BuildWarden.Guideline.Format
import BuildWarden.Proofs.Guideline.License
import BuildWarden.Proofs.Tree.Target
/-!
# Formatters that settle

A formatter of which nothing is known could do anything to a disk. A `FormattingRule` says what is
asked of one: it decides from the path of one file and its content, and either stores exactly the
text that it reformats the file to or leaves everything as it is. Two paths may lead to one file; a
rule that is `Coherent` treats it alike under both. Then formatting is an amendment. It settles if
the formatter leaves its own output alone, and it respects the licence check if the formatter
neither adds nor drops licences. `FormatCourse` lists once what an examination can come to, with any
formatter, and `FormatTurn` what it makes of a source if asking the formatter changes nothing.
-/

namespace BuildWarden.Guideline

open Text.Utf8 (encode decodeLenient)

/-- What a formatter does to a file, by the path and the content of the file. -/
structure FormattingRule where
  /-- The text a file should have, if it can be reformatted -/
  text? : String → Bytes → Option String
  /-- Whether the file cannot be given its text -/
  refuses : String → Bytes → Bool

namespace FormattingRule
variable (rule : FormattingRule)

/-- A formatter that follows the rule for the sources that are listed, on a disk and on all that it
develops into. -/
structure Governs (formatter : Formatter) (layout : Layout) (start : Disk) : Prop where
  /-- Asking for the text changes no file -/
  reformats : ∀ file world content executable, start.Develops world.disk →
    IsListed layout world.disk file →
    world.disk.open? file.path = .ok (file.location, .leaf (.file content executable)) →
      (formatter.reformat file world).1.toOption = rule.text? file.path content ∧
        (formatter.reformat file world).2.disk = world.disk
  /-- A refusal leaves the file as it was -/
  fails : ∀ file world content executable, start.Develops world.disk →
    IsListed layout world.disk file →
    world.disk.open? file.path = .ok (file.location, .leaf (.file content executable)) →
    rule.refuses file.path content = true →
      (∃ reason, (formatter.apply file world).1 = .error reason) ∧
        (formatter.apply file world).2.disk = world.disk
  /-- Otherwise exactly the text is stored, and in that file only -/
  stores : ∀ file world content executable text, start.Develops world.disk →
    IsListed layout world.disk file →
    world.disk.open? file.path = .ok (file.location, .leaf (.file content executable)) →
    rule.refuses file.path content = false → rule.text? file.path content = some text →
      (formatter.apply file world).1 = .ok () ∧ ∃ executable',
        (formatter.apply file world).2.disk = { world.disk with
          tree := world.disk.tree.put file.location (.leaf (.file (encode text) executable')) }

/-- The formatter returns its own output unchanged. -/
def Stable : Prop :=
  ∀ path content text, rule.text? path content = some text →
    rule.text? path (encode text) = some text

/-- The formatter never changes whether a content names its licence. -/
def KeepsLicense : Prop :=
  ∀ path content text, rule.text? path content = some text →
    hasLicense (encode text) = hasLicense content

/-- A source that is listed by two paths is treated alike under both, on a disk and on all that it
develops into. -/
def Coherent (layout : Layout) (start : Disk) : Prop :=
  ∀ disk, start.Develops disk → ∀ file other, IsListed layout disk file →
    IsListed layout disk other → file.location = other.location →
      rule.text? file.path = rule.text? other.path ∧
        rule.refuses file.path = rule.refuses other.path

/-- A path by which a source is listed that lies at a place, if there ever is one. -/
noncomputable def pathTo (layout : Layout) (start : Disk) (place : Location) : String :=
  Classical.epsilon fun path => ∃ disk file, start.Develops disk ∧ IsListed layout disk file ∧
    file.location = place ∧ file.path = path

/-- Storing the text of a file that reads differently. -/
noncomputable def formatting (layout : Layout) (start : Disk) : Amendment where
  flags place content :=
    (rule.text? (pathTo layout start place) content).any (decodeLenient content != ·)
  mend? place content :=
    if rule.refuses (pathTo layout start place) content then none
    else (rule.text? (pathTo layout start place) content).map encode

variable {rule} {layout : Layout} {start : Disk} {place : Location} {content mended : Bytes}

/-- **A coherent rule can be told by places**: it does not matter by which path a source is
listed. -/
theorem Coherent.pathTo_location (coherent : rule.Coherent layout start)
    (plain : start.tree.Plain) {disk : Disk} {file : SourceFile} (reached : start.Develops disk)
    (listed : IsListed layout disk file) :
    rule.text? (pathTo layout start file.location) = rule.text? file.path ∧
      rule.refuses (pathTo layout start file.location) = rule.refuses file.path := by
  obtain ⟨disk', other, reached', listed', same, path⟩ := Classical.epsilon_spec
    (p := fun path => ∃ disk other, start.Develops disk ∧ IsListed layout disk other ∧
      other.location = file.location ∧ other.path = path)
    ⟨file.path, disk, file, reached, listed, rfl, rfl⟩
  have listedHere : IsListed layout disk other :=
    listed'.of_agree (.of_develops reached' reached) (reached'.plain plain) (reached.plain plain)
      (listed.stands (reached.plain plain)) same.symm
  have alike := coherent disk reached other file listedHere listed same
  rwa [path] at alike

private theorem mend?_eq_some
    (replaces : (rule.formatting layout start).mend? place content = some mended) :
    rule.refuses (pathTo layout start place) content = false ∧
      ∃ text, rule.text? (pathTo layout start place) content = some text ∧
        mended = encode text := by
  simp only [formatting] at replaces
  split at replaces
  · cases replaces
  next willing =>
    obtain ⟨text, reformatted, rfl⟩ := Option.map_eq_some_iff.mp replaces
    exact ⟨Bool.eq_false_iff.mpr willing, text, reformatted, rfl⟩

/-- A formatter that leaves its own output alone finds nothing in what it stored. -/
theorem formatting_settles (stable : rule.Stable) : (rule.formatting layout start).Settles := by
  intro place content mended replaces _
  obtain ⟨-, text, reformatted, rfl⟩ := mend?_eq_some replaces
  simp [formatting, stable _ content text reformatted]

/-- A formatted file is licensed if it was before. -/
theorem formatting_respects_licensing (keeps : rule.KeepsLicense) (locked : Location → Bool) :
    (rule.formatting layout start).Respects (licensing locked) := by
  intro place content mended _ replaces
  obtain ⟨-, text, reformatted, rfl⟩ := mend?_eq_some replaces
  have same := keeps _ content text reformatted
  refine ⟨fun calm => ?_, fun flagged hopeless => ⟨?_, ?_⟩⟩
  · simpa [licensing, same] using calm
  · simpa [licensing, same] using flagged
  · by_cases shut : locked place = true
    · simp [licensing, shut]
    · simp [licensing, shut] at hopeless

end FormattingRule

/-- The sources that the format check leaves alone. -/
def unformatted (layout : Layout) (file : SourceFile) : Bool :=
  isExcepted (shownName layout file) formatExceptions

/-! ### The courses of an examination -/

/-- What is said of a source with which something could not be done. -/
def formatFailure (layout : Layout) (file : SourceFile) (what reason : String) : Console.Message :=
  .error ("[" ++ shownName layout file ++ "]" ++ " could not be " ++ what ++ ": " ++ reason)

/-- What is found of a source that reads differently from its text. -/
def formatFinding (layout : Layout) (file : SourceFile) (current text : String) : String :=
  "[" ++ shownName layout file ++ "]" ++ " not correctly formatted ("
    ++ toString (Text.changedLines current text) ++ " lines)"

/-- Whether a source that is not excepted reads differently from the text it is given, if there is
one. -/
def readsOtherwise (layout : Layout) (file : SourceFile) (content : Bytes)
    (answer : Option String) : Bool :=
  !unformatted layout file && answer.any (decodeLenient content != ·)

/-- A source whose content can be compared with the text that the formatter gives it. -/
structure Compared (layout : Layout) (formatter : Formatter) (file : SourceFile) (world : World)
    (content : Bytes) (text : String) (between : World) : Prop where
  checked : unformatted layout file = false
  asked : formatter.reformat file world = (.ok text, between)
  read : contentAt between.disk file.location = .ok content

section Compared
variable {layout : Layout} {formatter : Formatter} {file : SourceFile} {world between : World}
  {content there : Bytes} {text : String}
  (compared : Compared layout formatter file world content text between)
include compared

/-- If asking changed no file, it is the content of the source that is compared. -/
theorem Compared.content_eq (same : between.disk = world.disk)
    (present : world.disk.tree.aspect? file.location = some (.file there)) : content = there := by
  have read := compared.read
  rw [same, contentAt_of_aspect? present] at read
  exact (Except.ok.inj read).symm

private theorem Compared.readsOtherwise_eq :
    readsOtherwise layout file content (some text) = (decodeLenient content != text) := by
  simp [readsOtherwise, compared.checked]

end Compared

/-- The courses that an examination can take, with the outcome and the world that it leaves. -/
inductive FormatCourse (settings : Console.Settings) (layout : Layout) (formatter : Formatter)
    (correct : Bool) (file : SourceFile) (world : World) : Outcome × World → Prop
  /-- The source is left alone -/
  | spared : unformatted layout file = true →
      FormatCourse settings layout formatter correct file world (.fine, world)
  /-- The formatter has no text for it -/
  | unanswered {reason : String} {between : World} : unformatted layout file = false →
      formatter.reformat file world = (.error reason, between) →
        FormatCourse settings layout formatter correct file world
          (.fine, between.say settings (formatFailure layout file "formatted" reason))
  /-- It cannot be read -/
  | unread {text : String} {fault : OsFault} {between : World} : unformatted layout file = false →
      formatter.reformat file world = (.ok text, between) →
        contentAt between.disk file.location = .error fault →
          FormatCourse settings layout formatter correct file world
            (.fine, between.say settings (formatFailure layout file "read" fault.message))
  /-- It reads as it should -/
  | fine {content : Bytes} {text : String} {between : World} :
      Compared layout formatter file world content text between → decodeLenient content = text →
        FormatCourse settings layout formatter correct file world
          (.fine, between.say settings (.progress ("[" ++ file.name ++ "] OK")))
  /-- It reads differently, which is told only -/
  | told {content : Bytes} {text : String} {between : World} : correct = false →
      Compared layout formatter file world content text between → decodeLenient content ≠ text →
        FormatCourse settings layout formatter correct file world
          (.violation false, between.say settings
            (.notice (formatFinding layout file (decodeLenient content) text)))
  /-- It is rewritten -/
  | changed {content : Bytes} {text : String} {between final : World} : correct = true →
      Compared layout formatter file world content text between → decodeLenient content ≠ text →
        formatter.apply file between = (.ok (), final) →
          FormatCourse settings layout formatter correct file world
            (.violation true, final.say settings
              (.notice (formatFinding layout file (decodeLenient content) text ++ " : [changed]")))
  /-- It cannot be rewritten -/
  | kept {content : Bytes} {text reason : String} {between final : World} : correct = true →
      Compared layout formatter file world content text between → decodeLenient content ≠ text →
        formatter.apply file between = (.error reason, final) →
          FormatCourse settings layout formatter correct file world
            (.violation false, final.say settings (formatFailure layout file "rewritten" reason))

/-- **An examination takes one of these courses.** -/
theorem examineFormat_course (settings : Console.Settings) (layout : Layout)
    (formatter : Formatter) (correct : Bool) (file : SourceFile) (world : World) :
    FormatCourse settings layout formatter correct file world
      (examineFormat settings layout formatter correct file world) := by
  unfold examineFormat
  dsimp only
  split
  next excepted => exact .spared excepted
  next checked =>
  have checked : unformatted layout file = false := Bool.eq_false_iff.mpr checked
  split
  next reason between asked => exact .unanswered checked asked
  next text between asked =>
  split
  next fault unread => exact .unread checked asked unread
  next content read =>
  have compared : Compared layout formatter file world content text between :=
    ⟨checked, asked, read⟩
  split
  next reads => exact .fine compared reads
  next differs =>
  split
  next allowed =>
    split
    next final applied => exact .changed allowed compared differs applied
    next reason final applied => exact .kept allowed compared differs applied
  next calm => exact .told (Bool.eq_false_iff.mpr calm) compared differs

/-- What an examination makes of a source with some content, if the formatter gives an answer for it
and changes no file when it is asked: nothing, or the formatter is to rewrite a source that reads
otherwise. -/
inductive FormatTurn (layout : Layout) (formatter : Formatter) (correct : Bool) (file : SourceFile)
    (disk : Disk) (content : Bytes) (answer : Option String) : Outcome → Disk → Prop
  | fine : readsOtherwise layout file content answer = false →
      FormatTurn layout formatter correct file disk content answer .fine disk
  | told : correct = false → readsOtherwise layout file content answer = true →
      FormatTurn layout formatter correct file disk content answer (.violation false) disk
  | tried {text : String} {between : World} : correct = true →
      readsOtherwise layout file content answer = true → answer = some text →
        between.disk = disk →
          FormatTurn layout formatter correct file disk content answer
            (.violation (formatter.apply file between).1.isOk) (formatter.apply file between).2.disk

/-- **What becomes of a source goes by its content and the answer of the formatter**, until the
formatter is to rewrite it. -/
theorem examineFormat_turn (settings : Console.Settings) (layout : Layout) (correct : Bool)
    {formatter : Formatter} {file : SourceFile} {world : World} {content : Bytes}
    {answer : Option String}
    (present : world.disk.tree.aspect? file.location = some (.file content))
    (answers : (formatter.reformat file world).1.toOption = answer)
    (same : (formatter.reformat file world).2.disk = world.disk) :
    FormatTurn layout formatter correct file world.disk content answer
      (examineFormat settings layout formatter correct file world).1
      (examineFormat settings layout formatter correct file world).2.disk := by
  have given {there : Bytes} {text : String} {between : World}
      (compared : Compared layout formatter file world there text between) :
      readsOtherwise layout file content answer = (decodeLenient there != text) ∧
        answer = some text ∧ between.disk = world.disk := by
    rw [compared.asked] at answers same
    obtain rfl := compared.content_eq same present
    exact ⟨answers ▸ compared.readsOtherwise_eq, answers.symm, same⟩
  have course := examineFormat_course settings layout formatter correct file world
  generalize examineFormat settings layout formatter correct file world = result at course ⊢
  cases course with
  | spared spared => exact .fine (by simp [readsOtherwise, spared])
  | unanswered checked asked =>
      rw [asked] at answers same
      subst answers
      rw [World.say_disk, same]
      exact .fine (by simp [readsOtherwise, Except.toOption])
  | unread checked asked unread =>
      rw [asked] at same
      rw [same, contentAt_of_aspect? present] at unread
      cases unread
  | fine compared reads =>
      obtain ⟨otherwise, -, same⟩ := given compared
      rw [World.say_disk, same]
      exact .fine (by simp [otherwise, reads])
  | told calm compared differs =>
      obtain ⟨otherwise, -, same⟩ := given compared
      rw [World.say_disk, same]
      exact .told calm (otherwise.trans (bne_iff_ne.mpr differs))
  | changed allowed compared differs applied =>
      obtain ⟨otherwise, answered, same⟩ := given compared
      have tried : FormatTurn layout formatter correct file world.disk content answer _ _ :=
        .tried allowed (otherwise.trans (bne_iff_ne.mpr differs)) answered same
      rw [applied] at tried
      rw [World.say_disk]
      exact tried
  | kept allowed compared differs applied =>
      obtain ⟨otherwise, answered, same⟩ := given compared
      have tried : FormatTurn layout formatter correct file world.disk content answer _ _ :=
        .tried allowed (otherwise.trans (bne_iff_ne.mpr differs)) answered same
      rw [applied] at tried
      rw [World.say_disk]
      exact tried

/-- The format check formats. -/
theorem formatting_performs {rule : FormattingRule} {formatter : Formatter} {layout : Layout}
    {start : Disk} (governs : rule.Governs formatter layout start)
    (coherent : rule.Coherent layout start) (starts : start.tree.Plain)
    (settings : Console.Settings) (correct : Bool) :
    (rule.formatting layout start).Performs (unformatted layout) layout start correct
      (examineFormat settings layout formatter correct) := by
  intro file world reached plain listed
  obtain ⟨texts, refusals⟩ := coherent.pathTo_location starts reached listed
  obtain ⟨content, executable, leads⟩ := listed.stands plain
  have present : world.disk.tree.aspect? file.location = some (.file content) := by
    rw [Tree.aspect?, Disk.at?_of_locate (Disk.open?_eq_ok.mp leads)]
    rfl
  have finds : (rule.formatting layout start).finds (unformatted layout) file world.disk =
      readsOtherwise layout file content (rule.text? file.path content) := by
    rw [Amendment.finds, present, ← texts]
    rfl
  obtain ⟨answers, same⟩ := governs.reformats file world content executable reached listed leads
  have turn := examineFormat_turn settings layout correct present answers same
  generalize (examineFormat settings layout formatter correct file world).1 = outcome at turn ⊢
  generalize (examineFormat settings layout formatter correct file world).2.disk = after at turn ⊢
  cases turn with
  | fine calm => exact .fine (finds.trans calm)
  | told calm differs => exact .left content (finds.trans differs) present (by simp [calm])
  | @tried text between allowed differs reformatted same =>
      rw [← same] at reached listed leads
      cases refuses : rule.refuses file.path content with
      | true =>
          obtain ⟨⟨reason, failed⟩, kept⟩ :=
            governs.fails file between content executable reached listed leads refuses
          rw [failed, kept, same]
          exact .left content (finds.trans differs) present fun _ => by
            simp [FormattingRule.formatting, refusals, refuses]
      | false =>
          obtain ⟨done, executable', stored⟩ := governs.stores file between content executable text
            reached listed leads refuses reformatted
          rw [done, stored, same]
          exact .mended content (encode text) executable' allowed (finds.trans differs) present
            (by simp [FormattingRule.formatting, refusals, refuses, texts, reformatted])

/-! ### A formatter that leaves texts as they are -/

/-- Every text reads as it should, and what is not a text cannot be formatted. A file that is locked
cannot be given its text. -/
def leavingTexts (start : Disk) : FormattingRule where
  text? _ content :=
    if encode (decodeLenient content) = content then some (decodeLenient content) else none
  refuses path _ := start.locked (Path.target start.here path)

/-- The formatter that leaves texts as they are. -/
def textLeaver : Formatter where
  name := "text-leaver"
  available := true
  reformat file world :=
    match world.disk.read file.path with
    | .error fault => (.error fault.message, world)
    | .ok content =>
      if encode (decodeLenient content) = content then (.ok (decodeLenient content), world)
      else (.error "not a text", world)
  apply file world :=
    match world.disk.read file.path with
    | .error fault => (.error fault.message, world)
    | .ok content =>
      match world.disk.write file.path (encode (decodeLenient content)) with
      | .error fault => (.error fault.message, world)
      | .ok disk => (.ok (), { world with disk })

section LeavingTexts
variable {start : Disk} (layout : Layout) (plain : start.tree.Plain)

include plain in
/-- The formatter that leaves texts follows its rule, whatever is locked. -/
theorem leavingTexts_governs : (leavingTexts start).Governs textLeaver layout start where
  reformats := by
    intro file world content executable _ _ leads
    simp only [textLeaver, leavingTexts, Disk.read_of_open? leads]
    split
    · exact ⟨rfl, rfl⟩
    · exact ⟨rfl, rfl⟩
  fails := by
    intro file world content executable reached _ leads refuses
    have shut : world.disk.locked file.location = true := by
      rw [Disk.target_of_locate (reached.plain plain) (Disk.open?_eq_ok.mp leads), reached.here,
        reached.locked]
      exact refuses
    simp only [textLeaver, Disk.read_of_open? leads, Disk.write_of_open? leads, shut, ↓reduceIte]
    exact ⟨⟨_, rfl⟩, trivial⟩
  stores := by
    intro file world content executable text reached _ leads willing reads
    have unlocked : world.disk.locked file.location = false := by
      rw [Disk.target_of_locate (reached.plain plain) (Disk.open?_eq_ok.mp leads), reached.here,
        reached.locked]
      exact willing
    obtain ⟨-, rfl⟩ : encode (decodeLenient content) = content ∧ decodeLenient content = text := by
      simpa [leavingTexts] using reads
    simp only [textLeaver, Disk.read_of_open? leads, Disk.write_of_open? leads, unlocked,
      Bool.false_eq_true, ↓reduceIte]
    exact ⟨trivial, executable, rfl⟩

include plain in
/-- Paths that lead to one file have one target, so whether it is locked does not depend on them. -/
theorem leavingTexts_coherent : (leavingTexts start).Coherent layout start := by
  intro disk reached file other listed listedToo same
  refine ⟨rfl, ?_⟩
  have target {source : SourceFile} (known : IsListed layout disk source) :
      source.location = Path.target start.here source.path := by
    obtain ⟨content, executable, leads⟩ := known.stands (reached.plain plain)
    rw [Disk.target_of_locate (reached.plain plain) (Disk.open?_eq_ok.mp leads), reached.here]
  rw [target listed, target listedToo] at same
  simp only [leavingTexts, same]

variable (start)

/-- A text that is left as it is would be left again. -/
theorem leavingTexts_stable : (leavingTexts start).Stable := by
  intro path content text reads
  simp [leavingTexts]

/-- A text that is left as it is keeps its licence. -/
theorem leavingTexts_keepsLicense : (leavingTexts start).KeepsLicense := by
  intro path content text reads
  obtain ⟨same, rfl⟩ : encode (decodeLenient content) = content ∧ decodeLenient content = text := by
    simpa [leavingTexts] using reads
  rw [same]

end LeavingTexts

end BuildWarden.Guideline
