import BuildWarden.Guideline.Programs
import BuildWarden.Proofs.Console.Verbosity
import BuildWarden.Proofs.Guideline.Convergence
/-!
# Quiet runs

What a run finds and does is the same whatever is shown of it. All that goes wrong is told in
errors, and so are the sums of the checks; what a quiet run hides are announcements, and the notes
on single sources that the results count anyway.
-/

namespace BuildWarden.Guideline

/-- A formatter that says nothing itself, and does not go by what is shown. Its program may write
to the console. -/
structure Formatter.Discreet (formatter : Formatter) : Prop where
  reformats : ∀ file, Indifferent (fun _ => False) fun _ => formatter.reformat file
  applies : ∀ file, Indifferent (fun _ => False) fun _ => formatter.apply file

private theorem textLeaver_discreet : textLeaver.Discreet where
  reformats file world := by
    cases read : world.disk.read file.path with
    | error fault =>
        exact .of_still (.error fault.message) world fun _ _ => by simp [textLeaver, read]
    | ok content =>
        by_cases text : Text.Utf8.encode (Text.Utf8.decodeLenient content) = content
        · exact .of_still (.ok (Text.Utf8.decodeLenient content)) world fun _ _ => by
            simp [textLeaver, read, text]
        · exact .of_still (.error "not a text") world fun _ _ => by simp [textLeaver, read, text]
  applies file world := by
    cases read : world.disk.read file.path with
    | error fault =>
        exact .of_still (.error fault.message) world fun _ _ => by simp [textLeaver, read]
    | ok content =>
        cases written : world.disk.write file.path
            (Text.Utf8.encode (Text.Utf8.decodeLenient content)) with
        | error fault =>
            exact .of_still (.error fault.message) world fun _ _ => by
              simp [textLeaver, read, written]
        | ok disk =>
            exact .of_still (.ok ()) { world with disk } fun _ _ => by
              simp [textLeaver, read, written]

/-- The message that sums up a check. -/
def CheckResult.summary (result : CheckResult) : Console.Message :=
  .error (plural result.violations (toString result.violations ++ " " ++ result.kind ++ " error"))

namespace Inspection

/-- The inspection, shown under other settings. -/
def under (inspection : Inspection) (settings : Console.Settings) : Inspection :=
  { inspection with settings }

/-- What a run says besides errors: titles, notes on single sources, and what the linter remarks. -/
inductive Aside (inspection : Inspection) (remark : Console.Message → Prop) :
    Console.Message → Prop where
  | title (title : String) : Aside inspection remark (.header title)
  | announcement (title : String)
      (known : ∃ correct, title ∈ (inspection.checks correct).map Prod.fst) :
      Aside inspection remark (.notice title)
  | unlicensed (file : SourceFile) (changed : Bool) :
      Aside inspection remark (.notice ("[" ++ shownName inspection.layout file ++ "]"
        ++ " has no LGPL copyright in its first lines" ++ if changed then " : [changed]" else ""))
  | unformatted (file : SourceFile) (lines : Nat) (changed : Bool) :
      Aside inspection remark (.notice ("[" ++ shownName inspection.layout file ++ "]"
        ++ " not correctly formatted (" ++ toString lines ++ " lines)"
        ++ if changed then " : [changed]" else ""))
  | formatted (file : SourceFile) : Aside inspection remark (.progress ("[" ++ file.name ++ "] OK"))
  | unlinted :
      Aside inspection remark (.warning "No documentation linter configured, check skipped")
  | linted (message : Console.Message) (remarked : remark message) : Aside inspection remark message

/-- What a run may say. -/
def Says (inspection : Inspection) (remark : Console.Message → Prop) (message : Console.Message) :
    Prop :=
  message.isError = true ∨ inspection.Aside remark message

variable (inspection : Inspection) {remark : Console.Message → Prop} {correct : Bool}

private theorem admits_of_false {said : List Entry} (silent : Admits (fun _ => False) said) :
    Admits (inspection.Says remark) said :=
  silent.mono fun _ => False.elim

/-! ### The examinations -/

section Examinations
variable (remark correct)

private theorem examinePairing_indifferent (header : SourceFile) :
    Indifferent (inspection.Says remark) fun settings =>
      examinePairing settings inspection.layout correct header := by
  intro world
  let missing (ending : String) : Console.Message :=
    .error ("No cpp file for [" ++ shownName inspection.layout header ++ "]" ++ ending)
  by_cases paired : (!needsUnit inspection.layout header
      || world.disk.isFileIn header.directory (unitName header)) = true
  · exact .of_still .fine world fun settings transcript => by simp [examinePairing, paired]
  cases correct with
  | false =>
      refine .of_say (.violation false) world (missing "") .nil (.inl rfl) rfl
        fun settings transcript => ?_
      simp [examinePairing, paired, missing]
  | true =>
      cases written : world.disk.writeIn header.directory (unitName header)
          (Text.Utf8.encode (unitText inspection.layout header)) with
      | ok disk =>
          refine .of_say (.violation true) { world with disk } (missing " : [added]") .nil
            (.inl rfl) rfl fun settings transcript => ?_
          simp [examinePairing, paired, written, missing]
      | error fault =>
          refine .of_say (.violation false) world
            (missing (" : cannot create it (" ++ fault.message ++ ")")) .nil (.inl rfl)
            rfl fun settings transcript => ?_
          simp [examinePairing, paired, written, missing]

private theorem examineLicense_indifferent (file : SourceFile) :
    Indifferent (inspection.Says remark) fun settings =>
      examineLicense settings inspection.layout correct file := by
  intro world
  by_cases excepted : isExcepted (shownName inspection.layout file) licenseExceptions = true
  · exact .of_still .fine world fun settings transcript => by simp [examineLicense, excepted]
  cases read : contentAt world.disk file.location with
  | error fault =>
      refine .of_say .fine world (.error ("[" ++ shownName inspection.layout file ++ "]"
        ++ " could not be read: " ++ fault.message)) .nil (.inl rfl) rfl
        fun settings transcript => ?_
      simp [examineLicense, excepted, read]
  | ok content =>
  by_cases licensed : hasLicense content = true
  · exact .of_still .fine world fun settings transcript => by
      simp [examineLicense, excepted, read, licensed]
  cases correct with
  | false =>
      refine .of_say (.violation false) world _ .nil (.inr (.unlicensed file false))
        rfl fun settings transcript => ?_
      simp [examineLicense, excepted, read, licensed]
  | true =>
  cases written : world.disk.writeIn file.directory file.name (withLicense content) with
  | ok disk =>
      refine .of_say (.violation true) { world with disk } _ .nil (.inr (.unlicensed file true))
        rfl fun settings transcript => ?_
      simp [examineLicense, excepted, read, licensed, written]
  | error fault =>
      refine .of_say (.violation false) world (.error ("[" ++ shownName inspection.layout file
        ++ "]" ++ " could not be rewritten: " ++ fault.message)) .nil (.inl rfl) rfl
        fun settings transcript => ?_
      simp [examineLicense, excepted, read, licensed, written]

private theorem examineFormat_indifferent (discreet : inspection.formatter.Discreet)
    (file : SourceFile) :
    Indifferent (inspection.Says remark) fun settings =>
      examineFormat settings inspection.layout inspection.formatter correct file := by
  intro world
  by_cases excepted : isExcepted (shownName inspection.layout file) formatExceptions = true
  · exact .of_still .fine world fun settings transcript => by simp [examineFormat, excepted]
  obtain ⟨answer, between, said, asked, silent⟩ := discreet.reformats file world
  have silent : Admits (inspection.Says remark) said := inspection.admits_of_false silent
  cases answer with
  | error reason =>
      refine .of_say .fine between (formatFailure inspection.layout file "formatted" reason) silent
        (.inl rfl) rfl fun settings transcript => ?_
      simp [examineFormat, excepted, asked settings transcript, formatFailure]
  | ok formatted =>
  cases read : contentAt between.disk file.location with
  | error fault =>
      refine .of_say .fine between (formatFailure inspection.layout file "read" fault.message)
        silent (.inl rfl) rfl fun settings transcript => ?_
      simp [examineFormat, excepted, asked settings transcript, read, formatFailure]
  | ok content =>
  by_cases same : Text.Utf8.decodeLenient content = formatted
  · refine .of_say .fine between _ silent (.inr (.formatted file)) rfl
      fun settings transcript => ?_
    simp [examineFormat, excepted, asked settings transcript, read, same]
  let lines := Text.changedLines (Text.Utf8.decodeLenient content) formatted
  cases correct with
  | false =>
      refine .of_say (.violation false) between _ silent (.inr (.unformatted file lines false))
        rfl fun settings transcript => ?_
      simp [examineFormat, excepted, asked settings transcript, read, same, lines]
  | true =>
  obtain ⟨ending, after, more, applied, silentToo⟩ := discreet.applies file between
  have silentToo := silent.append (inspection.admits_of_false silentToo)
  cases ending with
  | ok done =>
      refine .of_say (.violation true) after _ silentToo (.inr (.unformatted file lines true))
        rfl fun settings transcript => ?_
      simp [examineFormat, excepted, asked settings transcript, read, same, lines,
        applied settings _]
  | error reason =>
      refine .of_say (.violation false) after
        (formatFailure inspection.layout file "rewritten" reason) silentToo (.inl rfl) rfl
        fun settings transcript => ?_
      simp [examineFormat, excepted, asked settings transcript, read, same, formatFailure,
        applied settings _]

end Examinations

/-! ### The checks -/

section Loops
variable {may : Console.Message → Prop} {examine : Console.Settings → Examination}

private theorem examineAll_indifferent
    (each : ∀ file, Indifferent may fun settings => examine settings file)
    (files : List SourceFile) :
    Indifferent may fun settings => examineAll (examine settings) files := by
  induction files with
  | nil => exact .pure []
  | cons file rest ih => exact (each file).bind fun outcome => ih.map (outcome :: ·)

private theorem examineKinds_indifferent
    (each : ∀ file, Indifferent may fun settings => examine settings file) (layout : Layout)
    (listing : SourceKind → Listing) (kinds : List SourceKind) :
    Indifferent may fun settings => examineKinds (examine settings) layout listing kinds := by
  induction kinds with
  | nil => exact .pure []
  | cons kind rest ih =>
      -- a kind is listed on the disk that is there when its turn comes
      exact .onDisk _ fun disk =>
        (examineAll_indifferent each (kind.sources layout (listing kind) disk)).bind
          fun outcomes => ih.map (outcomes ++ ·)

end Loops

section Checks
variable (remark correct)

private theorem pairing_indifferent :
    Indifferent (inspection.Says remark) fun settings =>
      (inspection.under settings).pairing correct := by
  let headers (disk : Disk) : List SourceFile :=
    SourceKind.headers.sources inspection.layout (inspection.listing .pairing) disk
  have examined := Indifferent.onDisk
    (fun disk settings =>
      examineAll (examinePairing settings inspection.layout correct) (headers disk))
    fun disk =>
      examineAll_indifferent (inspection.examinePairing_indifferent remark correct) (headers disk)
  exact (examined.map
    (CheckResult.count { name := "cpp_pairing", kind := "missing cppfile" })).congr
    fun settings => (inspection.under settings).pairing_eq correct

private theorem licenses_indifferent :
    Indifferent (inspection.Says remark) fun settings =>
      (inspection.under settings).licenses correct := by
  have examined := examineKinds_indifferent
    (inspection.examineLicense_indifferent remark correct) inspection.layout
    (fun kind => inspection.listing (.license kind)) SourceKind.all
  exact (examined.map
    (CheckResult.count { name := "license", kind := "missing LGPL licence" })).congr
    fun settings => (inspection.under settings).licenses_eq correct

private theorem formats_indifferent (discreet : inspection.formatter.Discreet) :
    Indifferent (inspection.Says remark) fun settings =>
      (inspection.under settings).formats correct := by
  by_cases available : inspection.formatter.available = true
  · have examined := examineKinds_indifferent
      (inspection.examineFormat_indifferent remark correct discreet) inspection.layout
      (fun kind => inspection.listing (.format kind)) SourceKind.all
    exact (examined.map (CheckResult.count { name := "format", kind := "format" })).congr
      fun settings => (inspection.under settings).formats_eq available correct
  · let refused : CheckResult := { name := "format", kind := "format", skipped := true }
    have said : Indifferent (inspection.Says remark) fun settings world =>
        (refused, world.say settings
          (.error ("No correct [" ++ inspection.formatter.name ++ "] tool has been found."))) :=
      .say refused _ (.inl rfl) rfl
    exact said.congr fun settings world => if_neg available

/-- The check of the documentation is as indifferent as its linter. -/
theorem checkDocumentation_indifferent
    (indifferent : ∀ linter ∈ inspection.linter, Indifferent remark (linter correct)) :
    Indifferent (inspection.Says remark) fun settings =>
      (inspection.under settings).checkDocumentation correct := by
  let skipped : CheckResult :=
    { name := "documentation", kind := "missing documentation", skipped := true }
  cases configured : inspection.linter with
  | none =>
      have said : Indifferent (inspection.Says remark) fun settings world =>
          (skipped, world.say settings
            (.warning "No documentation linter configured, check skipped")) :=
        .say skipped _ (.inr .unlinted) rfl
      exact said.congr fun settings world => by
        simp [checkDocumentation, under, configured, skipped]
  | some linter =>
      intro world
      obtain ⟨answer, after, said, answered, admits⟩ := indifferent linter configured world
      have admits : Admits (inspection.Says remark) said :=
        admits.mono fun message remarked => .inr (.linted message remarked)
      cases answer with
      | ok count =>
          refine ⟨{ skipped with skipped := false, violations := count }, after, said,
            fun settings transcript => ?_, admits⟩
          simp [checkDocumentation, under, configured, answered settings transcript, skipped]
      | error fault =>
          refine .of_say skipped after
            (.error ("Documentation linter failed: " ++ fault.message)) admits (.inl rfl)
            rfl fun settings transcript => ?_
          simp [checkDocumentation, under, configured, answered settings transcript, skipped]

omit correct in
private theorem checkDependencies_indifferent :
    Indifferent (inspection.Says remark) fun settings =>
      (inspection.under settings).checkDependencies := by
  let told (redundancy : Redundancy) : Console.Message :=
    .error ("[" ++ redundancy.module ++ "] depends on [" ++ redundancy.dependency
      ++ "] which is already provided by [" ++ redundancy.via ++ "]")
  have error (redundancy : Redundancy) : inspection.Says remark (told redundancy) := .inl rfl
  let found : CheckResult :=
    { name := "dependencies", kind := "redundant dependency"
      violations := inspection.graph.redundancies.length }
  exact Indifferent.sayEach found told error (fun _ => rfl) inspection.graph.redundancies

end Checks

/-! ### The run -/

/-- A check that is performed under any settings, with its title. -/
abbrev Titled := String × (Console.Settings → World → CheckResult × World)

/-- The checks with their titles, to be performed under any settings. -/
def titled (correct : Bool) : List Titled :=
  ((inspection.checks correct).map Prod.fst).zip
    [fun settings => (inspection.under settings).pairing correct,
      fun settings => (inspection.under settings).licenses correct,
      fun settings => (inspection.under settings).checkDocumentation correct,
      fun settings => (inspection.under settings).formats correct,
      fun settings => (inspection.under settings).checkDependencies]

private theorem map_titled (correct : Bool) (settings : Console.Settings) :
    (inspection.titled correct).map (fun entry => (entry.1, entry.2 settings)) =
      (inspection.under settings).checks correct :=
  rfl

/-- Each result that counts something is summed up in what is said. -/
def SumsUp (report : Report) (said : List Entry) : Prop :=
  ∀ result ∈ report, result.violations ≠ 0 → .message result.summary ∈ said

section Run
variable {title : String} {check : Console.Settings → World → CheckResult × World}

/-- A check is announced and summed up under all settings. -/
theorem perform_goes (announced : inspection.Says remark (.notice title))
    (indifferent : Indifferent (inspection.Says remark) check) (world : World) :
    ∃ result after said,
      Goes (fun settings => (inspection.under settings).perform title (check settings)) world
          result after said ∧
        Admits (inspection.Says remark) said ∧ SumsUp [result] said := by
  obtain ⟨result, after, said, goes, admits⟩ :=
    ((Indifferent.say () (.notice title) announced rfl).bind fun _ => indifferent) world
  have performed (settings : Console.Settings) (transcript : List Entry) :
      (inspection.under settings).perform title (check settings) { world with transcript } =
        let checked : World :=
          { after with transcript := transcript ++ said.filter (·.shownUnder settings) }
        (result,
          if result.violations = 0 then checked else checked.say settings result.summary) := by
    have goes : check settings (World.say { world with transcript } settings (.notice title)) = _ :=
      goes settings transcript
    simp only [perform, under, goes]
    rfl
  by_cases none : result.violations = 0
  · refine ⟨result, after, said, fun settings transcript => ?_, admits, ?_⟩
    · refine (performed settings transcript).trans ?_
      dsimp only
      rw [if_pos none]
    · intro other member some
      cases List.mem_singleton.mp member
      exact (some none).elim
  · refine ⟨result, after, said ++ [.message result.summary], fun settings transcript => ?_,
      admits.append (.singleton (.inl rfl) rfl), ?_⟩
    · refine (performed settings transcript).trans ?_
      dsimp only
      rw [if_neg none, say_eq, List.filter_append, List.append_assoc]
    · intro other member some
      cases List.mem_singleton.mp member
      exact List.mem_append_right _ List.mem_cons_self

private theorem performAll_goes {checks : List Titled}
    (each : ∀ entry ∈ checks, inspection.Says remark (.notice entry.1) ∧
      Indifferent (inspection.Says remark) entry.2) (world : World) :
    ∃ report after said,
      Goes (fun settings => (inspection.under settings).performAll
          (checks.map fun entry => (entry.1, entry.2 settings))) world report after said ∧
        Admits (inspection.Says remark) said ∧ SumsUp report said := by
  induction checks generalizing world with
  | nil => exact ⟨[], world, [], fun settings transcript => by simp [performAll], .nil, nofun⟩
  | cons entry rest ih =>
      obtain ⟨here, later⟩ := List.forall_mem_cons.mp each
      obtain ⟨result, between, said, first, admits, summed⟩ :=
        inspection.perform_goes here.1 here.2 world
      obtain ⟨report, after, more, further, admitsToo, summedToo⟩ := ih later between
      refine ⟨result :: report, after, said ++ more, fun settings transcript => ?_,
        admits.append admitsToo, ?_⟩
      · have first := first settings transcript
        have further := further settings (transcript ++ said.filter (·.shownUnder settings))
        dsimp only at first further
        simp [performAll, first, further]
      · intro other member some
        rcases List.mem_cons.mp member with rfl | member
        · exact List.mem_append_left _ (summed _ List.mem_cons_self some)
        · exact List.mem_append_right _ (summedToo _ member some)

end Run

section Run
variable (discreet : inspection.formatter.Discreet)
  (indifferent : ∀ linter ∈ inspection.linter, Indifferent remark (linter correct))
include discreet indifferent

private theorem titled_indifferent : ∀ entry ∈ inspection.titled correct,
    inspection.Says remark (.notice entry.1) ∧ Indifferent (inspection.Says remark) entry.2 := by
  intro entry member
  have known := (List.of_mem_zip member).1
  refine ⟨.inr (.announcement entry.1 ⟨correct, known⟩), ?_⟩
  have check := (List.of_mem_zip member).2
  simp only [List.mem_cons, List.not_mem_nil, or_false] at check
  rcases check with same | same | same | same | same
  all_goals rw [same]
  · exact inspection.pairing_indifferent remark correct
  · exact inspection.licenses_indifferent remark correct
  · exact inspection.checkDocumentation_indifferent remark correct indifferent
  · exact inspection.formats_indifferent remark correct discreet
  · exact inspection.checkDependencies_indifferent remark

private theorem run_goes (world : World) :
    ∃ report after said,
      Goes (fun settings => (inspection.under settings).run correct) world report after said ∧
        Admits (inspection.Says remark) said ∧ SumsUp report said := by
  let title := if correct then "[aGrUM guideline (with correction)]" else "[aGrUM guideline]"
  obtain ⟨report, after, said, goes, admits, summed⟩ :=
    inspection.performAll_goes (inspection.titled_indifferent discreet indifferent) world
  have opening : Admits (inspection.Says remark) [.message (.header title)] :=
    .singleton (.inr (.title title)) rfl
  refine ⟨report, after, [.message (.header title)] ++ said, fun settings transcript => ?_,
    opening.append admits, ?_⟩
  · change (inspection.under settings).performAll ((inspection.under settings).checks correct)
      (World.say { world with transcript } settings (.header title)) = _
    rw [say_eq, List.filter_append, ← List.append_assoc, ← inspection.map_titled]
    exact goes settings _
  · intro result member some
    exact List.mem_append_right _ (summed result member some)

/-- **Verbosity changes nothing but what is shown.** Under any two settings a run reports the same
and leaves the same disk. Under quiet it prints exactly the errors that it prints otherwise, the
sums of its checks among them; all else that it prints is an aside. -/
theorem run_verbosity (world : World) :
    (∀ one two : Console.Settings,
      let first := (inspection.under one).run correct world
      let second := (inspection.under two).run correct world
      first.1 = second.1 ∧ first.2.disk = second.2.disk ∧ first.2.calls = second.2.calls) ∧
      ∀ quiet loud : Console.Settings, quiet.quiet = true →
        ∃ hushed written,
          ((inspection.under quiet).run correct world).2.transcript = world.transcript ++ hushed ∧
          ((inspection.under loud).run correct world).2.transcript = world.transcript ++ written ∧
          messages hushed = (messages written).filter (·.isError) ∧
          (∀ result ∈ ((inspection.under quiet).run correct world).1,
            result.violations ≠ 0 → result.summary ∈ messages hushed) ∧
          ∀ message ∈ messages written,
            message.isError = true ∨ inspection.Aside remark message := by
  obtain ⟨report, after, said, goes, admits, summed⟩ :=
    inspection.run_goes discreet indifferent world
  have ran (settings : Console.Settings) : (inspection.under settings).run correct world = _ :=
    goes settings world.transcript
  refine ⟨fun one two => by simp only [ran, and_self], fun quiet loud silent => ?_⟩
  refine ⟨said.filter (·.shownUnder quiet), said.filter (·.shownUnder loud), ?_, ?_,
    admits.messages_quiet silent, fun result member some => ?_, fun message member => ?_⟩
  · rw [ran]
  · rw [ran]
  · rw [ran] at member
    exact mem_messages.mpr (List.mem_filter.mpr ⟨summed result member some, rfl⟩)
  · have known := (List.mem_filter.mp (mem_messages.mp member)).1
    exact (admits message known).1

end Run
end Inspection

/-- The usual inspection with a linter that finds two items. -/
def undocumented : Inspection :=
  { usualInspection with linter := some fun _ _ world => (.ok 2, world) }

/-- Two items without documentation are summed up under quiet as well. -/
theorem run_verbosity_undocumented :
    undocumented.formatter.Discreet ∧
      (∀ linter ∈ undocumented.linter, Indifferent (fun _ => False) (linter true)) ∧
      ((undocumented.under { quiet := true }).run true lockedUnit).1 =
        ((undocumented.under { verbose := true }).run true lockedUnit).1 ∧
      ((undocumented.under { quiet := true }).run true lockedUnit).2.disk =
        ((undocumented.under { verbose := true }).run true lockedUnit).2.disk ∧
      ∃ hushed written,
        ((undocumented.under { quiet := true }).run true lockedUnit).2.transcript = hushed ∧
        ((undocumented.under { verbose := true }).run true lockedUnit).2.transcript = written ∧
        messages hushed = (messages written).filter (·.isError) ∧
        .error "2 missing documentation errors" ∈ messages hushed := by
  have indifferent : ∀ linter ∈ undocumented.linter,
      Indifferent (fun _ => False) (linter true) := by
    intro linter member
    cases member
    exact .pure (Except.ok 2)
  obtain ⟨same, shown⟩ := undocumented.run_verbosity textLeaver_discreet indifferent lockedUnit
  obtain ⟨report, disk, -⟩ := same { quiet := true } { verbose := true }
  obtain ⟨hushed, written, printed, printedToo, errors, summed, -⟩ :=
    shown { quiet := true } { verbose := true } rfl
  refine ⟨textLeaver_discreet, indifferent, report, disk, hushed, written, printed, printedToo,
    errors, summed { name := "documentation", kind := "missing documentation", violations := 2 }
      ?_ (by decide)⟩
  rw [Inspection.run_report]
  exact List.mem_cons_of_mem _ (List.mem_cons_of_mem _ List.mem_cons_self)

/-! ### Programs of the host -/

section Host
variable (host : Host)

/-- A program that is started goes by the disk alone. -/
theorem start_transcript (directory program : String) (arguments : List String) (world : World)
    (transcript : List Entry) :
    host.start directory program arguments { world with transcript } =
      ((host.start directory program arguments world).1,
        { (host.start directory program arguments world).2 with transcript }) := by
  unfold Host.start
  dsimp only
  cases Host.enter world.disk directory with
  | error fault => rfl
  | ok disk =>
  dsimp only
  split
  · rfl
  · split
    · rfl
    · rfl

private theorem passAll_indifferent {α : Type} (answer : α) (ending : Ending) :
    Indifferent (fun _ => False) fun _ world => (answer, ending.passAll world) := by
  unfold Ending.passAll
  induction ending.written with
  | nil => exact .pure answer
  | cons written rest ih => exact (Indifferent.pass () written.2).bind fun _ => ih

private theorem clangFormatter_discreet (program : Option String) :
    (clangFormatter host program).Discreet where
  reformats file world := by
    have started := start_transcript host "." (program.getD "clang-format")
      ["-style=file", file.path] world
    generalize host.start "." (program.getD "clang-format") ["-style=file", file.path] world =
      ended at started
    obtain ⟨answer, after⟩ := ended
    cases answer with
    | error fault =>
        exact .of_still (.error fault.message) after fun _ _ => by
          simp [clangFormatter, askFormatter, started]
    | ok ending =>
        by_cases ended : ending.status = 0
        · refine .of_still (.ok (Text.Utf8.decodeLenient ending.output)) after fun _ _ => ?_
          simp [clangFormatter, askFormatter, started, ended]
        · refine .of_still (.error ("clang-format failed on " ++ file.path ++ ": "
            ++ Text.trim (Text.Utf8.decodeLenient ending.errors))) after fun _ _ => ?_
          simp [clangFormatter, askFormatter, started, ended]
  applies file world := by
    have started := start_transcript host "." (program.getD "clang-format")
      ["-style=file", "-i", file.path] world
    generalize host.start "." (program.getD "clang-format") ["-style=file", "-i", file.path] world =
      ended at started
    obtain ⟨answer, after⟩ := ended
    cases answer with
    | error fault =>
        exact .of_still (.error fault.message) after fun _ _ => by
          simp [clangFormatter, applyFormatter, started]
    | ok ending =>
        let answer : Except String Unit :=
          if ending.status = 0 then .ok () else .error ("clang-format -i failed on " ++ file.path)
        obtain ⟨⟨⟩, last, said, goes, silent⟩ := passAll_indifferent () ending after
        refine ⟨answer, last, said, fun settings transcript => ?_, silent⟩
        have passed : ending.passAll { after with transcript } = _ :=
          congrArg Prod.snd (goes settings transcript)
        by_cases ended : ending.status = 0
        · simp [clangFormatter, applyFormatter, started, ended, passed, answer]
        · simp [clangFormatter, applyFormatter, started, ended, passed, answer]

/-- What a linter says that the host runs: it notes what it finds. -/
def IsFinding (message : Console.Message) : Prop :=
  ∃ finding, message = .notice ("missing doc: [" ++ finding ++ "]")

private theorem lineLinter_indifferent (command directory : String) (correct : Bool) :
    Indifferent IsFinding (lineLinter host command directory correct) := by
  intro world
  let line := if correct then command ++ " --correction" else command
  have started (transcript : List Entry) :
      host.startLine directory line { world with transcript } =
        ((host.startLine directory line world).1,
          { (host.startLine directory line world).2 with transcript }) := by
    unfold Host.startLine
    split
    · exact start_transcript ..
    · exact start_transcript ..
  generalize host.startLine directory line world = ended at started
  obtain ⟨answer, after⟩ := ended
  cases answer with
  | error fault =>
      exact .of_still (.error (.os fault)) after fun _ _ => by simp [lineLinter, started, line]
  | ok ending =>
      let found := findings ending.output
      let note (finding : String) : Console.Message :=
        .notice ("missing doc: [" ++ finding ++ "]")
      have linted (settings : Console.Settings) (transcript : List Entry) :
          lineLinter host command directory correct settings { world with transcript } =
            if found.isEmpty && ending.status != 0 then
              (.error (.stepFailed ending.status), { after with transcript })
            else
              (.ok found.length,
                found.foldl (fun world finding => world.say settings (note finding))
                  { after with transcript }) := by
        simp only [lineLinter, started, line]
        rfl
      by_cases failed : (found.isEmpty && ending.status != 0) = true
      · exact .of_still (.error (.stepFailed ending.status)) after fun settings transcript => by
          rw [linted, if_pos failed]
      · have isFinding (finding : String) : IsFinding (note finding) := ⟨finding, rfl⟩
        obtain ⟨answer, last, said, goes, admits⟩ :=
          Indifferent.sayEach (Except.ok found.length) note isFinding (fun _ => rfl) found after
        refine ⟨answer, last, said, fun settings transcript => ?_, admits⟩
        rw [linted, if_neg failed]
        exact goes settings transcript

/-- The checks of a context are indifferent, with whatever programs the host has. -/
theorem ofContext_indifferent (context : Context) (settings : Console.Settings)
    (graph : ModuleGraph) :
    (Inspection.ofContext host context settings graph).formatter.Discreet ∧
      ∀ linter ∈ (Inspection.ofContext host context settings graph).linter, ∀ correct,
        Indifferent IsFinding (linter correct) := by
  refine ⟨clangFormatter_discreet host _, fun linter member correct => ?_⟩
  obtain ⟨command, -, rfl⟩ := Option.map_eq_some_iff.mp member
  exact lineLinter_indifferent host command _ correct

end Host
end BuildWarden.Guideline
