import BuildWarden.Proofs.Build.Digits
import BuildWarden.Proofs.Build.Validation
import BuildWarden.Proofs.Text.LetterCase
/-!
# Which options are accepted

Options are checked one after the other, and each check looks at one text. A build is accepted if
and only if every text is in the language of its check, and otherwise the first check that fails
gives the fault. What later checks would look at has no say in it.
-/

namespace BuildWarden

/-- The checks of a build. Where a compiler is named, it is looked at twice. -/
inductive OptionCheck where
  | compilerName
  | compilerPlatform
  | seed
  | action
  | mode
  | target
  | threads
  | tests
  deriving DecidableEq, Repr

namespace OptionCheck

/-- The checks in the order in which they are made. -/
def order : List OptionCheck :=
  [compilerName, compilerPlatform, seed, action, mode, target, threads, tests]

private theorem mem_order (check : OptionCheck) : check ∈ order := by
  cases check <;> decide

/-- The text that a check looks at, if there is one. A seed counts only where a fixed one is asked
for. -/
def given? (options : BuildOptions) : OptionCheck → Option String
  | compilerName | compilerPlatform => options.compiler
  | seed => if options.fixedSeed then some options.seed else none
  | action => some options.action
  | mode => some options.mode
  | target => some options.target
  | threads => some options.threads
  | tests => some options.tests

/-! ### The languages of the checks -/

/-- A text spells a word, in any case and with blanks around it. -/
def Spells (text word : String) : Prop :=
  List.Forall₂ Text.SameLetter word.toList (Text.trim text).toList

/-- The compilers of a platform. -/
def compilers : Platform → List String
  | .unix => ["gcc", "clang"]
  | .windows => ["mvsc22", "mvsc22_32", "mvsc19", "mvsc19_32", "mvsc17", "mvsc17_32", "mvsc15",
      "mvsc15_32", "mingw64"]

/-- The words that a check accepts, where it is about words. -/
def words : OptionCheck → List String
  | compilerName => compilers .unix ++ compilers .windows
  | action => ["install", "uninstall", "lib", "test", "doc"]
  | mode => ["release", "debug"]
  | target => ["aGrUM", "pyAgrum"]
  | threads => ["omp", "std"]
  | compilerPlatform | seed | tests => []

/-- The digits of a seed. -/
structure SeedDigits (digits : List Char) : Prop where
  something : digits ≠ []
  proper : ∀ c ∈ digits, c.isDigit = true
  fits : Nat.ofDigitChars 10 digits 0 < 2 ^ 64

/-- A seed is one or more digits, behind a plus sign or not, with a value of 64 bits. -/
def IsSeed (text : String) : Prop :=
  ∃ digits, ((Text.trim text).toList = digits ∨ (Text.trim text).toList = '+' :: digits) ∧
    SeedDigits digits

/-- The keyword for quick tests, and which of them behind a colon. -/
def NamesPart (cs : List Char) : Prop :=
  ∃ keyword part, cs = keyword ++ ':' :: part ∧
    List.Forall₂ Text.SameLetter "quick".toList keyword ∧ part ≠ []

/-- A scope is a keyword, or the keyword for quick tests with a part of them. -/
def IsScope (text : String) : Prop :=
  Spells text "all" ∨ Spells text "quick" ∨ NamesPart (Text.trim text).toList

/-- The texts that a check accepts. -/
def Admits (platform : Platform) (text : String) : OptionCheck → Prop
  | compilerName => Text.trim text = "" ∨ ∃ word ∈ words compilerName, Spells text word
  | compilerPlatform => Text.trim text = "" ∨ ∃ word ∈ compilers platform, Spells text word
  | seed => IsSeed text
  | tests => IsScope text
  | check => ∃ word ∈ check.words, Spells text word

/-- A text in lower case, without the blanks around it. -/
def lowered (text : String) : String :=
  String.ofList ((Text.trim text).toList.map Char.toLower)

/-- The fault of a text that a check does not accept. -/
def fault (platform : Platform) (text : String) : OptionCheck → Fault
  | compilerName =>
    .invalidOption "compiler" (Text.trim text) (Text.joined ", " (words compilerName))
  | compilerPlatform => .unsupportedCompiler (lowered text) platform
  | seed => .invalidOption "fixed_seed_value" (Text.trim text) "a non-negative integer"
  | action => .invalidOption "action" text (Text.joined ", " (words action))
  | mode => .invalidOption "mode" text (Text.joined ", " (words mode))
  | target => .invalidOption "target" text (Text.joined ", " (words target))
  | threads => .invalidOption "threads" text (Text.joined ", " (words threads))
  | tests => .invalidTestScope (Text.trim text)

/-- The check passes. -/
def Passes (options : BuildOptions) (platform : Platform) (check : OptionCheck) : Prop :=
  ∀ text ∈ check.given? options, check.Admits platform text

/-- The check fails, with a fault. -/
def Refuses (options : BuildOptions) (platform : Platform) (check : OptionCheck)
    (fault : Fault) : Prop :=
  ∃ text ∈ check.given? options, ¬check.Admits platform text ∧ check.fault platform text = fault

section Judged
variable {options : BuildOptions} {platform : Platform} {check : OptionCheck} {fault : Fault}
  {text : String} {α β : Type}

private theorem Refuses.not_passes (refuses : check.Refuses options platform fault) :
    ¬check.Passes options platform := by
  obtain ⟨text, given, outside, -⟩ := refuses
  exact fun passes => outside (passes text given)

private theorem Refuses.unique {fault' : Fault} (refuses : check.Refuses options platform fault)
    (again : check.Refuses options platform fault') : fault = fault' := by
  obtain ⟨text, given, -, rfl⟩ := refuses
  obtain ⟨text', given', -, rfl⟩ := again
  rw [Option.some.inj (given.symm.trans given')]

private theorem passes_iff (given : check.given? options = some text) :
    check.Passes options platform ↔ check.Admits platform text := by
  simp [Passes, given]

private theorem refuses_iff (given : check.given? options = some text) :
    check.Refuses options platform fault ↔
      ¬check.Admits platform text ∧ check.fault platform text = fault := by
  simp [Refuses, given]

/-! ### Checks one after the other -/

/-- What an outcome says about the checks that were made. -/
inductive Judges (options : BuildOptions) (platform : Platform) (checks : List OptionCheck) :
    Except Fault α → Prop where
  /-- All of them pass -/
  | accepts {value : α} (passes : ∀ check ∈ checks, check.Passes options platform) :
      Judges options platform checks (.ok value)
  /-- The first one that fails gives the fault -/
  | rejects {before after : List OptionCheck} {check : OptionCheck} {fault : Fault}
      (split : checks = before ++ check :: after)
      (passes : ∀ earlier ∈ before, earlier.Passes options platform)
      (refuses : check.Refuses options platform fault) :
      Judges options platform checks (.error fault)

/-- Later checks are made where the earlier ones pass. -/
theorem Judges.bind {checks later : List OptionCheck} {first : Except Fault α}
    {next : α → Except Fault β} (judged : Judges options platform checks first)
    (further : ∀ value, first = .ok value → Judges options platform later (next value)) :
    Judges options platform (checks ++ later) (first >>= next) := by
  cases judged with
  | @rejects before after check fault split passes refuses =>
      have whole : checks ++ later = before ++ check :: (after ++ later) := by
        rw [split, List.append_assoc, List.cons_append]
      exact .rejects whole passes refuses
  | @accepts value passes =>
      change Judges options platform (checks ++ later) (next value)
      generalize outcome : next value = result
      have judges := further value rfl
      rw [outcome] at judges
      cases judges with
      | accepts others => exact .accepts (List.forall_mem_append.mpr ⟨passes, others⟩)
      | @rejects before after check fault split others refuses =>
          have whole : checks ++ later = checks ++ before ++ check :: after := by
            rw [split, List.append_assoc]
          exact .rejects whole (List.forall_mem_append.mpr ⟨passes, others⟩) refuses

private theorem judges_ok (given : check.given? options = some text)
    (admitted : check.Admits platform text) (value : α) :
    Judges options platform [check] (.ok value : Except Fault α) := by
  refine .accepts fun other member => ?_
  obtain rfl := List.mem_singleton.mp member
  exact (passes_iff given).mpr admitted

private theorem judges_error (given : check.given? options = some text)
    (outside : ¬check.Admits platform text) (same : check.fault platform text = fault) :
    Judges options platform [check] (.error fault : Except Fault α) :=
  .rejects rfl (List.forall_mem_nil _) ((refuses_iff given).mpr ⟨outside, same⟩)

end Judged

/-! ### Words -/

private theorem sameIgnoringCase_trim {text word : String} :
    Text.sameIgnoringCase word (Text.trim text) = true ↔ Spells text word :=
  Text.sameIgnoringCase_iff

section Words
variable {options : BuildOptions} {platform : Platform} {check : OptionCheck} {text : String}
  {α : Type} {choices : Choices α}

/-- A word is read exactly if it is one of the accepted ones. -/
theorem find?_isSome_iff (choices : Choices α) (text : String) :
    (choices.find? text).isSome = true ↔ ∃ word ∈ choices.words.map (·.1), Spells text word := by
  unfold Choices.find?
  rw [Option.isSome_map, List.find?_isSome]
  simp only [sameIgnoringCase_trim, List.mem_map, exists_exists_and_eq_and]

/-- An option with a closed set of words, which is read from its text. -/
theorem judges_words {read : String} (given : check.given? options = some text)
    (admits : check.Admits platform text ↔ ∃ word ∈ choices.words.map (·.1), Spells read word)
    (refusal : check.fault platform text = choices.refusal read) :
    Judges options platform [check] (choices.parse read) := by
  have known := find?_isSome_iff choices read
  rw [← admits] at known
  unfold Choices.parse
  cases found : choices.find? read with
  | some value =>
      rw [found] at known
      exact judges_ok given (known.mp rfl) value
  | none =>
      rw [found] at known
      exact judges_error given (fun admitted => Bool.false_ne_true (known.mpr admitted)) refusal

end Words

private theorem judges_action (options : BuildOptions) (platform : Platform) :
    Judges options platform [action] (Action.choices.parse options.action) :=
  judges_words rfl Iff.rfl rfl

private theorem judges_mode (options : BuildOptions) (platform : Platform) :
    Judges options platform [mode] (Mode.choices.parse options.mode) :=
  judges_words rfl Iff.rfl rfl

private theorem judges_target (options : BuildOptions) (platform : Platform) :
    Judges options platform [target] (Target.choices.parse options.target) :=
  judges_words rfl Iff.rfl rfl

private theorem judges_threads (options : BuildOptions) (platform : Platform) :
    Judges options platform [threads] (Threads.choices.parse options.threads) :=
  judges_words rfl Iff.rfl rfl

/-! ### Compilers -/

section Compilers
variable {platform : Platform} {compiler : Compiler} {text word : String}

/-- The names of compilers are in lower case. -/
theorem lower_of_mem_compilers (member : word ∈ compilers platform) :
    word.toList.map Char.toLower = word.toList := by
  have lower : ∀ word ∈ compilers platform, word.toList.map Char.toLower = word.toList := by
    cases platform <;> decide
  exact lower word member

private theorem permittedOn_iff :
    compiler.permittedOn platform = true ↔ compiler.name ∈ compilers platform := by
  have listed : ∀ compiler ∈ Compiler.families,
      (compiler.permittedOn platform = true ↔ compiler.name ∈ compilers platform) := by
    cases platform <;> decide
  exact listed compiler compiler.mem_families

private theorem name_mem_compilers (compiler : Compiler) :
    compiler.name ∈ compilers compiler.platform :=
  permittedOn_iff.mp (decide_eq_true rfl)

private theorem lowered_eq (lower : word.toList.map Char.toLower = word.toList)
    (spelled : Spells text word) : lowered text = word := by
  unfold lowered
  rw [← Text.map_toLower_eq_iff.mpr spelled, lower, String.ofList_toList]

private theorem spells_trim : Spells (Text.trim text) word ↔ Spells text word := by
  unfold Spells
  rw [Text.trim_trim]

/-- A compiler is found by its name. -/
theorem spells_name (found : Compiler.choices.parse text = .ok compiler) :
    Spells text compiler.name := by
  unfold Choices.parse at found
  cases known : Compiler.choices.find? text with
  | none => simp [known] at found
  | some value =>
      rw [known] at found
      cases found
      obtain ⟨entry, first, rfl⟩ := Option.map_eq_some_iff.mp known
      have same := List.find?_some first
      obtain ⟨family, -, rfl⟩ := List.mem_map.mp (List.mem_of_find?_eq_some first)
      exact sameIgnoringCase_trim.mp same

/-- A compiler is permitted if one of the names that the platform has is spelled. -/
theorem permittedOn_iff_spells (spelled : Spells text compiler.name) :
    compiler.permittedOn platform = true ↔ ∃ word ∈ compilers platform, Spells text word := by
  rw [permittedOn_iff]
  constructor
  · intro listed
    exact ⟨compiler.name, listed, spelled⟩
  · intro accepted
    obtain ⟨word, listed, same⟩ := accepted
    have name := lowered_eq (lower_of_mem_compilers (name_mem_compilers compiler)) spelled
    rwa [← name, lowered_eq (lower_of_mem_compilers listed) same]

end Compilers

/-- A compiler that the options name is looked up by its text. -/
theorem judges_name {options : BuildOptions} {platform : Platform} {text : String}
    (given : options.compiler = some text) (filled : Text.trim text ≠ "") :
    Judges options platform [compilerName] (Compiler.choices.parse (Text.trim text)) := by
  have admits : Admits platform text compilerName ↔
      ∃ word ∈ Compiler.choices.words.map (·.1), Spells (Text.trim text) word := by
    simp only [Admits, filled, false_or, spells_trim]
    exact Iff.rfl
  exact judges_words given admits rfl

/-- A compiler that was found is asked whether the platform has it. -/
theorem judges_permitted {options : BuildOptions} {platform : Platform} {text : String}
    (given : options.compiler = some text) (filled : Text.trim text ≠ "") {compiler : Compiler}
    (spelled : Spells text compiler.name) :
    Judges options platform [compilerPlatform]
      (if compiler.permittedOn platform then .ok compiler
        else .error (compiler.refusal platform)) := by
  have looked : given? options compilerPlatform = some text := given
  have admits : Admits platform text compilerPlatform ↔ compiler.permittedOn platform = true := by
    rw [permittedOn_iff_spells spelled]
    exact or_iff_right filled
  split
  next permitted => exact judges_ok looked (admits.mpr permitted) compiler
  next foreign =>
    have name := lowered_eq (lower_of_mem_compilers (name_mem_compilers compiler)) spelled
    refine judges_error looked (fun admitted => foreign (admits.mp admitted)) ?_
    rw [fault, name, Compiler.refusal]

/-- A compiler that is named is looked up first, and then asked whether the platform has it. -/
theorem judges_compiler (options : BuildOptions) (platform : Platform) :
    Judges options platform [compilerName, compilerPlatform] (options.compilerFor platform) := by
  cases named : options.compiler.bind Text.nonBlank? with
  | some name =>
      obtain ⟨text, given, found⟩ := Option.bind_eq_some_iff.mp named
      obtain ⟨rfl, filled⟩ := Text.nonBlank?_eq_some.mp found
      rw [BuildOptions.compilerFor, named]
      exact (judges_name given filled).bind fun compiler found =>
        judges_permitted given filled (spells_trim.mp (spells_name found))
  | none =>
      have usual : (Compiler.defaultFor platform).permittedOn platform = true := by
        cases platform <;> rfl
      have blank : ∀ text ∈ options.compiler, Text.trim text = "" := by
        intro text given
        rw [Option.mem_def.mp given, Option.bind_some] at named
        exact Text.nonBlank?_eq_none.mp named
      rw [BuildOptions.compilerFor, named]
      change Judges options platform [compilerName, compilerPlatform]
        (if (Compiler.defaultFor platform).permittedOn platform then _ else _)
      rw [if_pos usual]
      refine .accepts fun check member text given => ?_
      rcases List.mem_pair.mp member with rfl | rfl
      · exact Or.inl (blank text given)
      · exact Or.inl (blank text given)

/-! ### Seeds -/

private theorem seedDigits_iff {digits : List Char} :
    (match JobRequest.digitsValue? digits with
      | some value => decide (value < UInt64.size)
      | none => false) = true ↔ SeedDigits digits := by
  cases read : JobRequest.digitsValue? digits with
  | some value =>
      obtain ⟨something, proper, rfl⟩ := JobRequest.digitsValue?_eq_some_iff.mp read
      rw [decide_eq_true_eq]
      exact ⟨fun fits => ⟨something, proper, fits⟩, SeedDigits.fits⟩
  | none =>
      refine ⟨fun never => (Bool.false_ne_true never).elim, fun seed => ?_⟩
      rw [JobRequest.digitsValue?_eq_some_iff.mpr ⟨seed.something, seed.proper, rfl⟩] at read
      cases read

/-- What is left of a text without the blanks around it is a seed if the text is one. -/
theorem isSeed_trim_iff {text : String} :
    BuildOptions.isSeed (Text.trim text) = true ↔ IsSeed text := by
  unfold BuildOptions.isSeed IsSeed
  generalize (Text.trim text).toList = cs
  dsimp only
  refine seedDigits_iff.trans ?_
  split
  next rest =>
    refine ⟨fun seed => ⟨rest, .inr rfl, seed⟩, ?_⟩
    rintro ⟨digits, rfl | same, seed⟩
    · exact absurd (seed.proper '+' List.mem_cons_self) (by decide)
    · rwa [(List.cons.inj same).2]
  next unsigned =>
    refine ⟨fun seed => ⟨cs, .inl rfl, seed⟩, ?_⟩
    rintro ⟨digits, rfl | same, seed⟩
    · exact seed
    · exact (unsigned digits same).elim

/-- A seed is checked where one is asked for. -/
theorem judges_seed (options : BuildOptions) (platform : Platform) :
    Judges options platform [seed] options.seedText := by
  unfold BuildOptions.seedText
  split
  next asked =>
    have given : given? options seed = some options.seed := if_pos asked
    dsimp only
    split
    next proper => exact judges_ok given (isSeed_trim_iff.mp proper) _
    next improper =>
      exact judges_error given (fun admitted => improper (isSeed_trim_iff.mpr admitted)) rfl
  next unasked =>
    refine .accepts fun check member text given => ?_
    obtain rfl := List.mem_singleton.mp member
    have none : given? options seed = none := if_neg unasked
    rw [none] at given
    cases given

/-! ### Scopes of tests -/

/-- A keyword has no colon, so the first colon is the one behind it. -/
theorem colon_not_mem {keyword : List Char}
    (alike : List.Forall₂ Text.SameLetter "quick".toList keyword) : ':' ∉ keyword := by
  intro member
  have lower := List.mem_map_of_mem (f := Char.toLower) member
  rw [← Text.map_toLower_eq_iff.mpr alike] at lower
  exact absurd lower (by decide)

private theorem namesPart_iff {cs : List Char} :
    NamesPart cs ↔ ∃ head part, Text.cutAt? ':' cs = some (head, part) ∧
      List.Forall₂ Text.SameLetter "quick".toList head ∧ part ≠ [] := by
  constructor
  · rintro ⟨keyword, part, rfl, alike, filled⟩
    exact ⟨keyword, part, Text.cutAt?_append (colon_not_mem alike) part, alike, filled⟩
  · rintro ⟨head, part, cut, scope⟩
    exact ⟨head, part, Text.eq_of_cutAt? cut, scope⟩

private theorem isSome_parseTrimmed?_iff (text : String) :
    (TestScope.parseTrimmed? (Text.trim text)).isSome = true ↔ IsScope text := by
  unfold TestScope.parseTrimmed? IsScope
  rw [namesPart_iff, Text.sameIgnoringCase_comm,
    Text.sameIgnoringCase_comm (Text.trim text) "quick"]
  split
  next all => simp [sameIgnoringCase_trim.mp all]
  next other =>
    rw [sameIgnoringCase_trim] at other
    cases cut : Text.cutAt? ':' (Text.trim text).toList with
    | none => simp [other, sameIgnoringCase_trim]
    | some found =>
        obtain ⟨head, part⟩ := found
        have bare : ¬Spells text "quick" := by
          intro spelled
          exact colon_not_mem spelled (by simp [Text.eq_of_cutAt? cut])
        have keyword : Text.sameIgnoringCase (String.ofList head) "quick" = true ↔
            List.Forall₂ Text.SameLetter "quick".toList head := by
          rw [Text.sameIgnoringCase_comm, Text.sameIgnoringCase_iff]
          simp only [String.toList_ofList]
        simp [other, bare, keyword]

private theorem judges_tests (options : BuildOptions) (platform : Platform) :
    Judges options platform [tests] (TestScope.parse options.tests) := by
  have known := isSome_parseTrimmed?_iff options.tests
  have given : given? options tests = some options.tests := rfl
  unfold TestScope.parse
  cases read : TestScope.parseTrimmed? (Text.trim options.tests) with
  | some scope =>
      rw [read] at known
      exact judges_ok given (known.mp rfl) scope
  | none =>
      rw [read] at known
      exact judges_error given (fun admitted => Bool.false_ne_true (known.mpr admitted)) rfl

/-! ### The order of the checks -/

private theorem judges_ofOptions (options : BuildOptions) (platform : Platform) :
    Judges options platform order (BuildRecord.ofOptions options platform) :=
  (judges_compiler options platform).bind fun _ _ =>
    (judges_seed options platform).bind fun _ _ =>
    (judges_action options platform).bind fun _ _ =>
    (judges_mode options platform).bind fun _ _ =>
    (judges_target options platform).bind fun _ _ =>
    (judges_threads options platform).bind fun _ _ =>
    (judges_tests options platform).bind fun _ _ =>
    .accepts (List.forall_mem_nil _)

/-- A check fails, and those `before` it pass. -/
structure FirstFault (options : BuildOptions) (platform : Platform) (before : List OptionCheck)
    (check : OptionCheck) (fault : Fault) : Prop where
  ordered : ∃ after, order = before ++ check :: after
  passes : ∀ earlier ∈ before, earlier.Passes options platform
  refuses : check.Refuses options platform fault

section First
variable {options other : BuildOptions} {platform : Platform} {before : List OptionCheck}
  {check : OptionCheck} {fault : Fault}

/-- A first fault depends only on what was looked at until then. -/
theorem FirstFault.same (first : FirstFault options platform before check fault)
    (same : ∀ earlier ∈ before ++ [check], earlier.given? other = earlier.given? options) :
    FirstFault other platform before check fault := by
  obtain ⟨same, last⟩ := List.forall_mem_append.mp same
  refine ⟨first.ordered, fun earlier member text given => ?_, ?_⟩
  · exact first.passes earlier member text (same earlier member ▸ given)
  · obtain ⟨text, given, outside⟩ := first.refuses
    exact ⟨text, (last check List.mem_cons_self).trans given, outside⟩

open Classical in
private theorem FirstFault.found (first : FirstFault options platform before check fault) :
    order.find? (fun check => !decide (check.Passes options platform)) = some check := by
  obtain ⟨⟨after, split⟩, passes, refuses⟩ := first
  refine List.find?_eq_some_iff_append.mpr ⟨?_, before, after, split, fun earlier member => ?_⟩
  · simpa using refuses.not_passes
  · simpa using passes earlier member

/-- There is only one first fault. -/
theorem FirstFault.unique {before' : List OptionCheck} {check' : OptionCheck} {fault' : Fault}
    (first : FirstFault options platform before check fault)
    (again : FirstFault options platform before' check' fault') : fault = fault' := by
  obtain rfl := Option.some.inj (first.found.symm.trans again.found)
  exact first.refuses.unique again.refuses

private theorem ofOptions_eq_error_iff :
    BuildRecord.ofOptions options platform = .error fault ↔
      ∃ before check, FirstFault options platform before check fault := by
  have judges := judges_ofOptions options platform
  generalize BuildRecord.ofOptions options platform = outcome at judges
  cases judges with
  | accepts passes =>
      refine ⟨fun never => (by cases never), fun faulty => ?_⟩
      obtain ⟨before, check, first⟩ := faulty
      exact absurd (passes check (mem_order check)) first.refuses.not_passes
  | @rejects before after check found split passes refuses =>
      have first : FirstFault options platform before check found :=
        ⟨⟨after, split⟩, passes, refuses⟩
      constructor
      · intro same
        cases same
        exact ⟨before, check, first⟩
      · intro faulty
        obtain ⟨before', check', again⟩ := faulty
        rw [first.unique again]

private theorem ofOptions_isOk_iff :
    (∃ record, BuildRecord.ofOptions options platform = .ok record) ↔
      ∀ check : OptionCheck, check.Passes options platform := by
  have judges := judges_ofOptions options platform
  generalize BuildRecord.ofOptions options platform = outcome at judges
  cases judges with
  | @accepts record passes =>
      exact ⟨fun _ check => passes check (mem_order check), fun _ => ⟨record, rfl⟩⟩
  | @rejects before after check found split passes refuses =>
      refine ⟨fun accepted => ?_, fun all => absurd (all check) refuses.not_passes⟩
      obtain ⟨record, never⟩ := accepted
      cases never

end First

/-- **Options are accepted if every check passes**, and otherwise the first check that fails gives
the fault. Options that are the same up to this check have the same fault, whatever the later checks
would look at. -/
theorem ofOptions_first_fault (options : BuildOptions) (platform : Platform) :
    ((∃ record, BuildRecord.ofOptions options platform = .ok record) ↔
      ∀ check : OptionCheck, check.Passes options platform) ∧
    (∀ fault, BuildRecord.ofOptions options platform = .error fault ↔
      ∃ before check, FirstFault options platform before check fault) ∧
    ∀ before check fault other, FirstFault options platform before check fault →
      (∀ earlier ∈ before ++ [check], earlier.given? other = earlier.given? options) →
      BuildRecord.ofOptions other platform = .error fault := by
  refine ⟨ofOptions_isOk_iff, fun fault => ofOptions_eq_error_iff, ?_⟩
  intro before check fault other first same
  exact ofOptions_eq_error_iff.mpr ⟨before, check, first.same same⟩

/-- A seed that is too large is refused as a seed, although the mode and the tests are wrong as
well. -/
theorem ofOptions_first_fault_large_seed :
    BuildRecord.ofOptions
        { fixedSeed := true, seed := "18446744073709551616", mode := "fast", tests := "slow" }
        .unix =
      .error (.invalidOption "fixed_seed_value" "18446744073709551616"
        "a non-negative integer") := by
  have large : FirstFault { fixedSeed := true, seed := "18446744073709551616" } .unix
      [compilerName, compilerPlatform] seed
      (.invalidOption "fixed_seed_value" "18446744073709551616" "a non-negative integer") := by
    refine ⟨⟨_, rfl⟩, ?_, "18446744073709551616", rfl, ?_, ?_⟩
    · intro earlier member text given
      rcases List.mem_pair.mp member with rfl | rfl
      · cases given
      · cases given
    · intro proper
      exact absurd (isSeed_trim_iff.mpr proper) (by decide)
    · decide
  exact (ofOptions_first_fault _ _).2.2 _ _ _ _ large (by decide)

end OptionCheck
end BuildWarden
