import BuildWarden.Pattern.Reader
import BuildWarden.Proofs.Guideline.Order
import Mathlib.Algebra.Ring.Nat
/-!
# Failures stay with their files

Whatever fails, a run reports the results of its five checks. A check that corrects tells of each
source that it could not correct in one error, so what it leaves is what these errors are. And a
failure at one location changes nothing elsewhere.
-/

namespace BuildWarden

/-! ### What is printed -/

/-- An error whose text starts so. -/
def Entry.tells (start : String) : Entry → Bool
  | .message (.error text) => start.toList.isPrefixOf text.toList
  | _ => false

/-- So many errors that start so were printed between two worlds. -/
def World.Prints (start : String) (before after : World) (count : Nat) : Prop :=
  ∃ printed, after.transcript = before.transcript ++ printed ∧
    printed.countP (Entry.tells start) = count

namespace World
variable {start : String} {before between after : World} {one other : Nat}

private theorem Prints.refl (start : String) (world : World) : World.Prints start world world 0 :=
  ⟨[], (List.append_nil _).symm, rfl⟩

private theorem Prints.trans (first : World.Prints start before between one)
    (second : World.Prints start between after other) :
    World.Prints start before after (one + other) := by
  obtain ⟨printed, written, counted⟩ := first
  obtain ⟨more, writtenToo, countedToo⟩ := second
  refine ⟨printed ++ more, ?_, ?_⟩
  · rw [writtenToo, written, List.append_assoc]
  · rw [List.countP_append, counted, countedToo]

private theorem prints_say (start : String) (world : World) (settings : Console.Settings)
    (message : Console.Message) :
    World.Prints start world (world.say settings message)
      (if Entry.tells start (.message message) then 1 else 0) := by
  refine ⟨_, World.say_transcript world settings message, ?_⟩
  by_cases shown : message.shownUnder settings = true
  · rw [if_pos shown, List.countP_singleton]
  -- no setting hides an error
  · rw [if_neg shown, List.countP_nil]
    cases message with
    | error text => exact (shown rfl).elim
    | _ => rfl

end World

namespace Guideline

variable {settings : Console.Settings} {layout : Layout}

/-- How the error starts that tells of a unit that cannot be made. -/
def unitRefusal (layout : Layout) (header : SourceFile) : String :=
  "No cpp file for [" ++ shownName layout header ++ "]" ++ " : cannot create it ("

/-- How the error starts that tells of a source that cannot be rewritten. -/
def rewriteRefusal (layout : Layout) (file : SourceFile) : String :=
  "[" ++ shownName layout file ++ "]" ++ " could not be rewritten: "

/-- The errors that tell of sources that could not be corrected. -/
def refusals (refusal : SourceFile → String) (visits : List Visit) : Nat :=
  (visits.map fun visit => visit.printed.countP (Entry.tells (refusal visit.file))).sum

/-- How many violations an outcome leaves. -/
def Outcome.left : Outcome → Nat
  | .violation false => 1
  | _ => 0

/-- An examination that tells of a violation it leaves in one error. -/
def Tells (refusal : SourceFile → String) (examine : Examination) : Prop :=
  ∀ file world, World.Prints (refusal file) world (examine file world).2
    (examine file world).1.left

section Tells
variable {refusal : SourceFile → String} {examine : Examination}

private theorem Tells.appends (tells : Tells refusal examine) : Appends examine := by
  intro file world
  obtain ⟨printed, written, -⟩ := tells file world
  exact ⟨printed, written.symm⟩

/-- **What is left is told**, error by error. -/
theorem refusals_visitAll (tells : Tells refusal examine) (files : List SourceFile)
    (world : World) :
    refusals refusal (visitAll examine files world) =
      unresolved ((visitAll examine files world).map Visit.outcome) := by
  induction files generalizing world with
  | nil => rfl
  | cons file rest ih =>
      obtain ⟨printed, written, counted⟩ := tells file world
      have further := ih (examine file world).2
      unfold refusals unresolved at further ⊢
      rw [visitAll_cons, List.map_cons, List.map_cons, List.sum_cons, List.countP_cons, further]
      dsimp only
      rw [written, List.drop_left, counted, Nat.add_comm]
      cases (examine file world).1 with
      | fine => rfl
      | violation corrected => cases corrected <;> rfl

private theorem refusals_visitKinds (tells : Tells refusal examine) (layout : Layout)
    (listing : SourceKind → Listing) (kinds : List SourceKind) (world : World) :
    refusals refusal (visitKinds examine layout listing kinds world) =
      unresolved ((visitKinds examine layout listing kinds world).map Visit.outcome) := by
  induction kinds generalizing world with
  | nil => rfl
  | cons kind rest ih =>
      have here := refusals_visitAll tells (kind.sources layout (listing kind) world.disk) world
      have further := ih
        (examineAll examine (kind.sources layout (listing kind) world.disk) world).2
      unfold refusals unresolved at here further ⊢
      rw [visitKinds, List.map_append, List.map_append, List.sum_append, List.countP_append, here,
        further]

end Tells

/-! ### The examinations -/

section Printed
variable (settings : Console.Settings) (world : World)

private theorem prints_refusal (start rest : String) :
    World.Prints start world (world.say settings (.error (start ++ rest))) 1 := by
  have starts : Entry.tells start (.message (.error (start ++ rest))) = true := by
    rw [Entry.tells, List.isPrefixOf_iff_prefix, String.toList_append]
    exact List.prefix_append _ _
  have said := World.prints_say start world settings (.error (start ++ rest))
  rwa [if_pos starts] at said

/-- Another text behind the common front is no refusal, if neither text starts the other one. -/
theorem prints_other (common ending other rest : String)
    (longer : ¬ending.toList <+: other.toList) (shorter : ¬other.toList <+: ending.toList) :
    World.Prints (common ++ ending) world
      (world.say settings (.error (common ++ other ++ rest))) 0 := by
  have silent : ¬Entry.tells (common ++ ending) (.message (.error (common ++ other ++ rest))) := by
    intro starts
    rw [Entry.tells, List.isPrefixOf_iff_prefix, String.toList_append, String.toList_append,
      String.toList_append, List.append_assoc, List.prefix_append_right_inj] at starts
    rcases List.prefix_or_prefix_of_prefix starts (List.prefix_append _ _) with inside | inside
    · exact longer inside
    · exact shorter inside
  have said := World.prints_say (common ++ ending) world settings
    (.error (common ++ other ++ rest))
  rwa [if_neg silent] at said

end Printed

private theorem examinePairing_tells (settings : Console.Settings) (layout : Layout) :
    Tells (unitRefusal layout) (examinePairing settings layout true) := by
  intro header world
  unfold examinePairing unitRefusal
  generalize "No cpp file for [" ++ shownName layout header ++ "]" = common
  split
  · exact .refl _ world
  simp only [↓reduceIte]
  generalize world.disk.writeIn _ _ _ = answer
  cases answer with
  | ok disk =>
      have said := prints_other settings { world with disk } common " : cannot create it ("
        " : [added]" "" (by decide) (by decide)
      rw [String.append_empty] at said
      exact said
  | error fault =>
      have said := prints_refusal settings world (common ++ " : cannot create it (")
        (fault.message ++ ")")
      simp only [String.append_assoc] at said ⊢
      exact said

private theorem examineLicense_tells (settings : Console.Settings) (layout : Layout) :
    Tells (rewriteRefusal layout) (examineLicense settings layout true) := by
  intro file world
  unfold examineLicense rewriteRefusal
  generalize "[" ++ shownName layout file ++ "]" = common
  dsimp only
  split
  · exact .refl _ world
  generalize contentAt world.disk file.location = content
  cases content with
  | error fault =>
      exact prints_other settings world common " could not be rewritten: "
        " could not be read: " fault.message (by decide) (by decide)
  | ok content =>
      dsimp only
      split
      · exact .refl _ world
      simp only [↓reduceIte]
      generalize world.disk.writeIn _ _ _ = answer
      cases answer with
      | ok disk => exact World.prints_say _ { world with disk } settings (.notice _)
      | error fault =>
          exact prints_refusal settings world (common ++ " could not be rewritten: ") fault.message

/-- A formatter that prints no errors of its own. -/
structure Formatter.Silent (formatter : Formatter) : Prop where
  reformats : ∀ file (world : World), ∃ printed,
    (formatter.reformat file world).2.transcript = world.transcript ++ printed ∧
      ∀ text, .message (.error text) ∉ printed
  applies : ∀ file (world : World), ∃ printed,
    (formatter.apply file world).2.transcript = world.transcript ++ printed ∧
      ∀ text, .message (.error text) ∉ printed

private theorem prints_silent (start : String) {before after : World}
    (silent : ∃ printed, after.transcript = before.transcript ++ printed ∧
      ∀ text, .message (.error text) ∉ printed) : World.Prints start before after 0 := by
  obtain ⟨printed, wrote, faultless⟩ := silent
  refine ⟨printed, wrote, List.countP_eq_zero.mpr ?_⟩
  intro entry member starts
  cases entry with
  | message message =>
      cases message with
      | error text => exact faultless text member
      | _ => cases starts
  | _ => cases starts

/-- The failure to rewrite a source is a refusal. -/
theorem formatFailure_rewritten (layout : Layout) (file : SourceFile) (reason : String) :
    formatFailure layout file "rewritten" reason =
      .error (rewriteRefusal layout file ++ reason) := by
  have whole : " could not be " ++ "rewritten" ++ ": " = " could not be rewritten: " := by decide
  simp only [formatFailure, rewriteRefusal, ← whole, String.append_assoc]

/-- No other failure is one. -/
theorem prints_formatFailure (settings : Console.Settings) (layout : Layout) (file : SourceFile)
    (between : World) {what : String} (reason : String)
    (longer : ¬" could not be rewritten: ".toList <+: (" could not be " ++ what ++ ": ").toList)
    (shorter : ¬(" could not be " ++ what ++ ": ").toList <+: " could not be rewritten: ".toList) :
    World.Prints (rewriteRefusal layout file) between
      (between.say settings (formatFailure layout file what reason)) 0 := by
  have printed := prints_other settings between ("[" ++ shownName layout file ++ "]")
    " could not be rewritten: " (" could not be " ++ what ++ ": ") reason longer shorter
  simpa only [formatFailure, rewriteRefusal, String.append_assoc] using printed

private theorem examineFormat_tells {formatter : Formatter} (silent : formatter.Silent)
    (settings : Console.Settings) (layout : Layout) :
    Tells (rewriteRefusal layout) (examineFormat settings layout formatter true) := by
  intro file world
  have asked := prints_silent (rewriteRefusal layout file) (silent.reformats file world)
  have course := examineFormat_course settings layout formatter true file world
  generalize examineFormat settings layout formatter true file world = result at course ⊢
  cases course with
  | spared => exact .refl _ world
  | unanswered _ reply =>
      rw [reply] at asked
      exact asked.trans (prints_formatFailure settings layout file _ _ (by decide) (by decide))
  | unread _ reply =>
      rw [reply] at asked
      exact asked.trans (prints_formatFailure settings layout file _ _ (by decide) (by decide))
  | fine compared =>
      rw [compared.asked] at asked
      exact asked.trans (World.prints_say _ _ settings (.progress _))
  | told calm => cases calm
  | @changed content text between final _ compared _ applied =>
      have ended := prints_silent (rewriteRefusal layout file) (silent.applies file between)
      rw [compared.asked] at asked
      rw [applied] at ended
      exact (asked.trans ended).trans (World.prints_say _ final settings (.notice _))
  | @kept content text reason between final _ compared _ applied =>
      have ended := prints_silent (rewriteRefusal layout file) (silent.applies file between)
      rw [compared.asked] at asked
      rw [applied] at ended
      rw [formatFailure_rewritten]
      exact (asked.trans ended).trans
        (prints_refusal settings final (rewriteRefusal layout file) reason)

/-! ### Without correction -/

private theorem examinePairing_reports (settings : Console.Settings) (layout : Layout)
    (header : SourceFile) (world : World) :
    (examinePairing settings layout false header world).1 ≠ .violation true := by
  unfold examinePairing
  dsimp only
  split
  · simp
  · simp

private theorem examineLicense_reports (settings : Console.Settings) (layout : Layout)
    (file : SourceFile)
    (world : World) : (examineLicense settings layout false file world).1 ≠ .violation true := by
  unfold examineLicense
  dsimp only
  split
  · simp
  split
  · simp
  split
  · simp
  · simp

private theorem examineFormat_reports (settings : Console.Settings) (layout : Layout)
    (formatter : Formatter) (file : SourceFile) (world : World) :
    (examineFormat settings layout formatter false file world).1 ≠ .violation true := by
  have course := examineFormat_course settings layout formatter false file world
  generalize examineFormat settings layout formatter false file world = result at course ⊢
  cases course with
  | changed allowed => cases allowed
  | _ => simp

private theorem corrected_eq_zero {visits : List Visit}
    (reports : ∀ visit ∈ visits, visit.outcome ≠ .violation true) :
    (visits.map Visit.outcome).countP (· == .violation true) = 0 := by
  rw [List.countP_eq_zero]
  intro outcome member
  obtain ⟨visit, visited, rfl⟩ := List.mem_map.mp member
  simpa using reports visit visited

/-! ### The results of a run -/

/-- How the names of sources of a kind are written as a pattern. -/
def SourceKind.glob : SourceKind → String
  | units => "*.cpp"
  | headers => "*.h"
  | suites => "*TestSuite.h"

/-- The patterns of the sources can be read, which is all that could stop a run. -/
theorem parse_glob (kind : SourceKind) : Pattern.parse kind.glob = .ok kind.pattern := by
  cases kind with
  | units => cbv
  | headers => cbv
  | suites => cbv

private theorem Report.total_eq_sum (report : Report) :
    report.total = (report.map CheckResult.violations).sum := by
  unfold Report.total
  induction report with
  | nil => rfl
  | cons result rest ih => rw [List.foldr_cons, List.map_cons, List.sum_cons, ih]

/-- A result in which what is corrected was counted, and nothing is counted by a check that was
skipped. -/
structure CheckResult.Sound (result : CheckResult) (correct : Bool) : Prop where
  corrected_le : result.corrected ≤ result.violations
  reports : correct = false → result.corrected = 0
  skipped : result.skipped = true → result.violations = 0

private theorem CheckResult.sound_count {fresh : CheckResult} {visits : List Visit} {correct : Bool}
    (zero : fresh.violations = 0) (none : fresh.corrected = 0)
    (reports : correct = false → ∀ visit ∈ visits, visit.outcome ≠ .violation true)
    (skipped : fresh.skipped = true → visits = []) :
    (fresh.count (visits.map Visit.outcome)).Sound correct := by
  obtain ⟨violations, corrected⟩ := count_fresh zero none (visits.map Visit.outcome)
  refine ⟨?_, fun calm => ?_, fun skips => ?_⟩
  · have parts := unresolved_add_corrected (visits.map Visit.outcome)
    omega
  · rw [corrected]
    exact corrected_eq_zero (reports calm)
  · rw [violations, skipped skips]
    rfl

/-- What a correcting check leaves is what its errors tell: the violations that were not corrected
are as many as the refusals among what it printed. -/
structure CheckResult.Accounts (result : CheckResult) (refusal : SourceFile → String)
    (visits : List Visit) (before after : World) : Prop where
  printed : result.skipped = false →
    after.transcript = before.transcript ++ visits.flatMap Visit.printed
  told : result.violations = result.corrected + refusals refusal visits

private theorem CheckResult.told_count {fresh : CheckResult} {refusal : SourceFile → String}
    {visits : List Visit} (zero : fresh.violations = 0) (none : fresh.corrected = 0)
    (told : refusals refusal visits = unresolved (visits.map Visit.outcome)) :
    (fresh.count (visits.map Visit.outcome)).violations =
      (fresh.count (visits.map Visit.outcome)).corrected + refusals refusal visits := by
  rw [told, violations_count (zero.trans none.symm), Nat.add_comm]

namespace Inspection
variable (inspection : Inspection) (correct : Bool) (world : World)

private theorem pairing_sound : (inspection.pairing correct world).1.Sound correct := by
  rw [pairing_counts]
  refine CheckResult.sound_count rfl rfl ?_ (fun skipped => by cases skipped)
  rintro rfl visit member
  obtain ⟨between, became⟩ := outcome_of_mem_visitAll member
  rw [became]
  exact examinePairing_reports _ _ _ _

private theorem licenses_sound : (inspection.licenses correct world).1.Sound correct := by
  rw [licenses_counts]
  refine CheckResult.sound_count rfl rfl ?_ (fun skipped => by cases skipped)
  rintro rfl visit member
  obtain ⟨between, became⟩ := outcome_of_mem_visitKinds member
  rw [became]
  exact examineLicense_reports _ _ _ _

private theorem formats_sound : (inspection.formats correct world).1.Sound correct := by
  rw [formats_counts]
  refine CheckResult.sound_count rfl rfl ?_ fun skipped => ?_
  · rintro rfl visit member
    unfold formatVisits at member
    split at member
    · obtain ⟨between, became⟩ := outcome_of_mem_visitKinds member
      rw [became]
      exact examineFormat_reports _ _ _ _ _
    · cases member
  · unfold formatVisits
    rw [if_neg (by simpa using skipped)]

private theorem checkDocumentation_sound :
    (inspection.checkDocumentation correct world).1.Sound correct := by
  unfold checkDocumentation
  split
  · exact ⟨Nat.le_refl 0, fun _ => rfl, fun _ => rfl⟩
  · dsimp only
    split
    · exact ⟨Nat.zero_le _, fun _ => rfl, fun skipped => by cases skipped⟩
    · exact ⟨Nat.le_refl 0, fun _ => rfl, fun _ => rfl⟩

private theorem checkDependencies_sound : (inspection.checkDependencies world).1.Sound correct :=
  ⟨Nat.zero_le _, fun _ => rfl, fun skipped => by cases skipped⟩

private theorem pairing_accounts :
    (inspection.pairing true world).1.Accounts (unitRefusal inspection.layout)
      (inspection.pairingVisits true world) world (inspection.pairing true world).2 := by
  have tells := examinePairing_tells inspection.settings inspection.layout
  constructor
  · intro _
    rw [pairing_eq]
    exact transcript_examineAll tells.appends _ world
  · rw [pairing_counts]
    exact CheckResult.told_count rfl rfl (refusals_visitAll tells _ world)

private theorem licenses_accounts :
    (inspection.licenses true world).1.Accounts (rewriteRefusal inspection.layout)
      (inspection.licenseVisits true world) world (inspection.licenses true world).2 := by
  have tells := examineLicense_tells inspection.settings inspection.layout
  constructor
  · intro _
    rw [licenses_eq]
    exact transcript_examineKinds tells.appends _ world
  · rw [licenses_counts]
    exact CheckResult.told_count rfl rfl (refusals_visitKinds tells _ _ _ world)

private theorem formats_accounts (silent : inspection.formatter.Silent) :
    (inspection.formats true world).1.Accounts (rewriteRefusal inspection.layout)
      (inspection.formatVisits true world) world (inspection.formats true world).2 := by
  have tells := examineFormat_tells silent inspection.settings inspection.layout
  constructor
  · intro ran
    by_cases available : inspection.formatter.available = true
    · rw [formats_eq inspection available, formatVisits, if_pos available]
      exact transcript_examineKinds tells.appends _ world
    · rw [(formats_skipped inspection available true world).1] at ran
      cases ran
  · rw [formats_counts]
    refine CheckResult.told_count rfl rfl ?_
    unfold formatVisits
    split
    · exact refusals_visitKinds tells _ _ _ world
    · rfl

/-- A linter that does not go by the tree gives the same result on every one. -/
theorem checkDocumentation_same {correct : Bool}
    (steady : ∀ linter ∈ inspection.linter, ∀ one other : World,
      (linter correct inspection.settings one).1 = (linter correct inspection.settings other).1)
    (one other : World) :
    (inspection.checkDocumentation correct one).1 =
      (inspection.checkDocumentation correct other).1 := by
  unfold checkDocumentation
  cases configured : inspection.linter with
  | none => rfl
  | some linter =>
      have same := steady linter configured one other
      dsimp only
      generalize linter correct inspection.settings one = answered at same ⊢
      generalize linter correct inspection.settings other = answeredToo at same ⊢
      obtain ⟨answer, after⟩ := answered
      obtain ⟨answerToo, afterToo⟩ := answeredToo
      obtain rfl : answer = answerToo := same
      cases answer with
      | ok count => rfl
      | error fault => rfl

variable {inspection world} {conduct : FormatterConduct}

/-- **Failures stay with their files.** Whatever fails, a run reports its five results, and what its
checks leave is what their errors tell. With another formatter or other locks at one place, all
that is not at that place goes as before. -/
theorem failures_stay_local (regular : inspection.Regular conduct world.disk)
    (silent : inspection.formatter.Silent) :
    let report := (inspection.run correct world).1
    (∀ kind : SourceKind, Pattern.parse kind.glob = .ok kind.pattern) ∧
      report.map CheckResult.name =
        ["cpp_pairing", "license", "documentation", "format", "dependencies"] ∧
      report.total = (report.map CheckResult.violations).sum ∧
      (∀ result ∈ report, result.Sound correct) ∧
      (correct = true → ∃ pairing license format,
        report.get? "cpp_pairing" = some pairing ∧ report.get? "license" = some license ∧
        report.get? "format" = some format ∧
        pairing.Accounts (unitRefusal inspection.layout)
          (inspection.pairingVisits true (inspection.stage true world 0))
          (inspection.stage true world 0)
          (inspection.pairing true (inspection.stage true world 0)).2 ∧
        license.Accounts (rewriteRefusal inspection.layout)
          (inspection.licenseVisits true (inspection.stage true world 1))
          (inspection.stage true world 1)
          (inspection.licenses true (inspection.stage true world 1)).2 ∧
        format.Accounts (rewriteRefusal inspection.layout)
          (inspection.formatVisits true (inspection.stage true world 3))
          (inspection.stage true world 3)
          (inspection.formats true (inspection.stage true world 3)).2) ∧
      ∀ (place : Location) (formatter : Formatter) (conductToo : FormatterConduct)
        (lockedToo : Location → Bool),
        formatter.available = inspection.formatter.available →
        conductToo.Describes formatter inspection.layout lockedToo →
        conduct.Alike (· = place) conductToo →
        (∀ location, location ≠ place → lockedToo location = world.disk.locked location) →
        let other := { inspection with formatter }
        let next := { world with disk := { world.disk with locked := lockedToo } }
        RunsAgree (· = place) inspection other correct world next ∧
          (other.run correct next).1.get? "dependencies" = report.get? "dependencies" ∧
          ((∀ linter ∈ inspection.linter, ∀ one two : World,
              (linter correct inspection.settings one).1 =
                (linter correct inspection.settings two).1) →
            (other.run correct next).1.get? "documentation" =
              report.get? "documentation") := by
  intro report
  refine ⟨parse_glob, ?_, Report.total_eq_sum report, ?_, ?_, ?_⟩
  · simp only [report, run_report, List.map_cons, List.map_nil, pairing_name, licenses_name,
      checkDocumentation_name, formats_name]
    rfl
  · intro result member
    simp only [report, run_report, List.mem_cons, List.not_mem_nil, or_false] at member
    rcases member with rfl | rfl | rfl | rfl | rfl
    · exact pairing_sound ..
    · exact licenses_sound ..
    · exact checkDocumentation_sound ..
    · exact formats_sound ..
    · exact checkDependencies_sound ..
  · rintro rfl
    exact ⟨_, _, _, run_get?_pairing .., run_get?_license .., run_get?_format ..,
      pairing_accounts .., licenses_accounts .., formats_accounts _ _ silent⟩
  · intro place formatter conductToo lockedToo available describes conducts locks other next
    have regularToo : other.Regular conductToo next.disk :=
      ⟨regular.faithful, regular.plain, regular.named, describes, regular.idle⟩
    have same : Disk.AgreeApart (fun _ => False) world.disk next.disk :=
      ⟨rfl, fun _ _ => rfl, fun _ => Iff.rfl⟩
    refine ⟨runs_agree regular regularToo rfl available conducts same locks correct, ?_, ?_⟩
    · rw [run_get?_dependencies, run_get?_dependencies]
      rfl
    · intro steady
      rw [run_get?_documentation, run_get?_documentation]
      exact congrArg some (checkDocumentation_same inspection steady _ _)

end Inspection

private theorem textLeaver_silent : textLeaver.Silent where
  reformats file world := by
    refine ⟨[], ?_, fun _ => List.not_mem_nil⟩
    unfold textLeaver
    dsimp only
    split
    · simp
    · split
      · simp
      · simp
  applies file world := by
    refine ⟨[], ?_, fun _ => List.not_mem_nil⟩
    unfold textLeaver
    dsimp only
    split
    · simp
    · split
      · simp
      · simp

/-- Where locks agree, texts are left in the same way. -/
theorem leavingTextsConduct_alike {apart : Location → Prop} {locked lockedToo : Location → Bool}
    (locks : ∀ location, ¬apart location → lockedToo location = locked location) :
    (leavingTextsConduct locked).Alike apart (leavingTextsConduct lockedToo) := by
  intro file outside
  have same := locks file.location outside
  refine ⟨rfl, ?_, ?_⟩
  · funext content
    simp only [leavingTextsConduct, same]
  · funext content
    simp only [leavingTextsConduct, same]

/-- A unit that cannot be written is told once, and locking its header as well changes nothing
else. -/
theorem failures_stay_local_locked_unit :
    let header : Location := ["src", "agrum", "a.h"]
    let both : Location → Bool := fun location =>
      lockedUnit.disk.locked location || location == header
    lockedUnit.disk.tree.Plain ∧ lockedUnit.disk.NoBareHeader ∧ textLeaver.Silent ∧
      refusals (unitRefusal {})
        (usualInspection.pairingVisits true (usualInspection.stage true lockedUnit 0)) = 1 ∧
      Inspection.RunsAgree (· = header) usualInspection
        { usualInspection with formatter := textLeaver } true lockedUnit
        { lockedUnit with disk := { lockedUnit.disk with locked := both } } := by
  intro header both
  have plain : lockedUnit.disk.tree.Plain := by decide
  have named : lockedUnit.disk.NoBareHeader := Disk.noBareHeader_of_files plain (by decide)
  have locks : ∀ location, location ≠ header → both location = lockedUnit.disk.locked location := by
    intro location outside
    simp [both, outside]
  obtain ⟨-, -, -, -, accounts, agree⟩ := Inspection.failures_stay_local true
    (usualInspection_regular plain named) textLeaver_silent
  obtain ⟨pairing, license, format, reported, -, -, ⟨-, told⟩, -, -⟩ := accounts rfl
  obtain ⟨agrees, -⟩ := agree header textLeaver (leavingTextsConduct both) both rfl
    (leavingTexts_described _ both) (leavingTextsConduct_alike locks) locks
  refine ⟨plain, named, textLeaver_silent, ?_, agrees⟩
  rw [Inspection.run_get?_pairing, Option.some.injEq] at reported
  have starts := usualInspection.stage_zero_disk true lockedUnit
  have counted : pairing.violations = 1 ∧ pairing.corrected = 0 := by
    rw [← reported, Inspection.pairing_eq, pairingOutcomes_lockedUnit starts]
    exact ⟨rfl, rfl⟩
  rw [counted.1, counted.2, Nat.zero_add] at told
  exact told.symm

end Guideline
end BuildWarden
