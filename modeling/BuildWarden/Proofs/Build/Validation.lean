import BuildWarden.Build.Record
import BuildWarden.Proofs.Build.ModuleSet
/-!
# Validated builds

A record holds every option in one spelling: words by their names, texts without the blanks around
them, modules as a canonical set. Written back as options it is validated to itself, so validating
is a projection onto the records it gives.
-/

namespace BuildWarden

private theorem bind_eq_ok {α β : Type} {first : Except Fault α} {next : α → Except Fault β}
    {result : β} :
    (first >>= next) = .ok result ↔ ∃ value, first = .ok value ∧ next value = .ok result := by
  cases first with
  | error fault => simp [bind, Except.bind]
  | ok value => simp [bind, Except.bind]

/-! ### Words -/

namespace Choices
variable {α : Type} {choices : Choices α} {word : String} {value : α}

/-- The words have no blanks around them, and differ in more than case. -/
structure Distinct (choices : Choices α) : Prop where
  trimmed : ∀ entry ∈ choices.words, Text.trim entry.1 = entry.1
  apart : choices.words.Pairwise fun one other => Text.sameIgnoringCase one.1 other.1 = false

/-- A word among distinct ones is read as what it means. -/
theorem Distinct.parse (distinct : choices.Distinct) (member : (word, value) ∈ choices.words) :
    choices.parse word = .ok value := by
  obtain ⟨front, back, split⟩ := List.append_of_mem member
  have apart := distinct.apart
  rw [split, List.pairwise_append] at apart
  have first : choices.words.find? (fun entry => Text.sameIgnoringCase entry.1 word) =
      some (word, value) := by
    refine List.find?_eq_some_iff_append.mpr ⟨by simp [Text.sameIgnoringCase], front, back, split,
      fun entry before => ?_⟩
    rw [apart.2.2 entry before (word, value) List.mem_cons_self]
    rfl
  have found : choices.find? word = some value := by
    rw [find?, distinct.trimmed _ member, first, Option.map_some]
  rw [Choices.parse, found]

end Choices

private theorem Action.parse_name (action : Action) : choices.parse action.name = .ok action := by
  have distinct : choices.Distinct := ⟨by decide, by decide⟩
  exact distinct.parse (List.mem_map_of_mem (by cases action <;> decide))

private theorem Mode.parse_name (mode : Mode) : choices.parse mode.name = .ok mode := by
  have distinct : choices.Distinct := ⟨by decide, by decide⟩
  exact distinct.parse (List.mem_map_of_mem (by cases mode <;> decide))

private theorem Target.parse_name (target : Target) : choices.parse target.name = .ok target := by
  have distinct : choices.Distinct := ⟨by decide, by decide⟩
  exact distinct.parse (List.mem_map_of_mem (by cases target <;> decide))

private theorem Threads.parse_name (threads : Threads) :
    choices.parse threads.name = .ok threads := by
  have distinct : choices.Distinct := ⟨by decide, by decide⟩
  exact distinct.parse (List.mem_map_of_mem (by cases threads <;> decide))

/-- Every compiler is in one of the families. -/
theorem Compiler.mem_families (compiler : Compiler) : compiler ∈ families := by
  rcases compiler with _ | _ | ⟨release, width⟩ | _
  case studio => cases release <;> cases width <;> decide
  all_goals decide

private theorem Compiler.parse_name (compiler : Compiler) :
    choices.parse compiler.name = .ok compiler := by
  have distinct : choices.Distinct := ⟨by decide, by decide⟩
  exact distinct.parse (List.mem_map_of_mem compiler.mem_families)

private theorem Compiler.nonBlank?_name (compiler : Compiler) :
    Text.nonBlank? compiler.name = some compiler.name := by
  have named : ∀ compiler ∈ families, Text.nonBlank? compiler.name = some compiler.name := by decide
  exact named compiler compiler.mem_families

/-! ### Scopes of tests -/

namespace TestScope
variable {text : String} {scope : TestScope}

/-- The part of a scope that was read is not empty and has no blank at its end. There may be blanks
and separators elsewhere in it. -/
def Settled : TestScope → Prop
  | quick (some part) => part ≠ "" ∧ ∀ c ∈ part.toList.getLast?, Text.isBlank c = false
  | _ => True

private theorem settled_parse (read : parse text = .ok scope) : scope.Settled := by
  unfold parse at read
  split at read
  case h_2 => cases read
  next scope' found =>
    cases read
    unfold parseTrimmed? at found
    split at found
    · cases found
      trivial
    split at found
    next =>
      split at found
      · cases found
        trivial
      · cases found
    next head part cut =>
      split at found
      case isFalse => cases found
      next proper =>
        cases found
        have filled : part ≠ [] := by simp_all
        refine ⟨fun none => filled (by simpa using congrArg String.toList none), fun c last => ?_⟩
        -- the end of the part is the end of the text, which is trimmed
        rw [String.toList_ofList] at last
        have whole := Text.eq_of_cutAt? cut
        rw [Text.trim, String.toList_ofList] at whole
        have ends : (Text.trimChars text.toList).getLast? = some c := by
          rw [whole, List.getLast?_append, List.getLast?_cons_of_ne_nil filled, last,
            Option.some_or]
        exact Text.isBlank_getLast_trimChars ends

section Part
variable {part : String}

private theorem toList_quick (part : String) :
    ("quick:" ++ part).toList = "quick".toList ++ ':' :: part.toList := by
  simp [String.toList_append]

private theorem trim_quick (filled : part ≠ "")
    (last : ∀ c ∈ part.toList.getLast?, Text.isBlank c = false) :
    Text.trim ("quick:" ++ part) = "quick:" ++ part := by
  have filled : part.toList ≠ [] := by simpa using filled
  have ends : Text.trimChars ("quick:" ++ part).toList = ("quick:" ++ part).toList := by
    refine Text.trimChars_eq_self.mpr ⟨fun c first => ?_, fun c final => last c ?_⟩
    · rw [toList_quick] at first
      cases first
      decide
    · rwa [toList_quick, List.getLast?_append, List.getLast?_cons_of_ne_nil filled,
        Option.or_of_isSome (by simpa using filled)] at final
  rw [Text.trim, ends, String.ofList_toList]

/-- Only the first separator is the one behind the keyword. -/
theorem parseTrimmed?_quick (filled : part ≠ "") :
    parseTrimmed? ("quick:" ++ part) = some (.quick (some part)) := by
  have other : Text.sameIgnoringCase ("quick:" ++ part) "all" = false := by
    rw [Text.sameIgnoringCase, toList_quick]
    rfl
  have cut : Text.cutAt? ':' ("quick:" ++ part).toList = some ("quick".toList, part.toList) := by
    rw [toList_quick]
    rfl
  have keyword : Text.sameIgnoringCase "quick" "quick" = true := by decide
  have filled : part.toList.isEmpty = false := by simpa using filled
  simp only [parseTrimmed?, other, cut, keyword, filled, Bool.not_false, Bool.and_self, if_true,
    Bool.false_eq_true, if_false, String.ofList_toList]

end Part

/-- **A scope is read back** from its text. -/
theorem Settled.parse_shown (settled : scope.Settled) : parse scope.shown = .ok scope := by
  match scope, settled with
  | .all, _ => rfl
  | .quick none, _ => rfl
  | .quick (some part), ⟨filled, last⟩ =>
      rw [shown, parse, trim_quick filled last, parseTrimmed?_quick filled]

end TestScope

/-! ### Options -/

namespace BuildOptions
variable {options : BuildOptions} {platform : Platform} {compiler : Compiler}

/-- The compiler that options choose for a platform is permitted on it. -/
theorem permittedOn_of_compilerFor (chosen : options.compilerFor platform = .ok compiler) :
    compiler.permittedOn platform = true := by
  have judged : ∀ found : Compiler,
      (if found.permittedOn platform then Except.ok found
        else .error (found.refusal platform)) = .ok compiler →
      compiler.permittedOn platform = true := by
    intro found checked
    split at checked
    next permitted =>
      cases checked
      exact permitted
    next => cases checked
  unfold compilerFor at chosen
  dsimp only at chosen
  split at chosen
  next =>
    obtain ⟨found, -, checked⟩ := bind_eq_ok.mp chosen
    exact judged found checked
  next => exact judged _ chosen

/-- A seed that was accepted is trimmed, and there is one if one is asked for. -/
theorem seedText_eq_ok {seed : Option String} (accepted : options.seedText = .ok seed) :
    seed.isSome = options.fixedSeed ∧
      ∀ text ∈ seed, Text.trim text = text ∧ isSeed text = true := by
  unfold seedText at accepted
  split at accepted
  next asked =>
    dsimp only at accepted
    split at accepted
    next proper =>
      cases accepted
      refine ⟨asked.symm, fun text same => ?_⟩
      cases same
      exact ⟨Text.trim_trim _, proper⟩
    next => cases accepted
  next unasked =>
    cases accepted
    exact ⟨by simpa using unasked, fun text none => by cases none⟩

/-- A compiler that the platform has may be asked for by its name. -/
theorem compilerFor_name (asked : options.compiler = some compiler.name)
    (permitted : compiler.permittedOn platform = true) :
    options.compilerFor platform = .ok compiler := by
  rw [compilerFor, asked, Option.bind_some, compiler.nonBlank?_name]
  exact bind_eq_ok.mpr ⟨compiler, compiler.parse_name, if_pos permitted⟩

/-- A seed that was accepted may be asked for again. -/
theorem seedText_accepted {seed : Option String} {unused : String}
    (asked : options.fixedSeed = seed.isSome) (value : options.seed = seed.getD unused)
    (proper : ∀ text ∈ seed, Text.trim text = text ∧ isSeed text = true) :
    options.seedText = .ok seed := by
  cases seed with
  | none => simp [seedText, asked]
  | some text =>
      obtain ⟨trimmed, digits⟩ := proper text rfl
      have value : options.seed = text := value
      simp [seedText, asked, value, trimmed, digits]

end BuildOptions

/-! ### Records -/

namespace BuildRecord
variable {options : BuildOptions} {platform : Platform} {record : BuildRecord}

/-- What a record says about the options it was made from, field by field. -/
structure Validates (options : BuildOptions) (platform : Platform) (record : BuildRecord) :
    Prop where
  compiler : options.compilerFor platform = .ok record.compiler
  seed : options.seedText = .ok record.seed
  action : Action.choices.parse options.action = .ok record.action
  mode : Mode.choices.parse options.mode = .ok record.mode
  target : Target.choices.parse options.target = .ok record.target
  threads : Threads.choices.parse options.threads = .ok record.threads
  tests : TestScope.parse options.tests = .ok record.tests
  modules : .parse options.modules = record.modules
  compilerDir : options.compilerDir.bind Text.nonBlank? = record.compilerDir
  jobs : Text.trim options.jobs = record.jobs
  destination : options.destination = record.destination
  pythonLibrary : options.pythonLibrary.bind Text.nonBlank? = record.pythonLibrary
  pythonInclude : options.pythonInclude.bind Text.nonBlank? = record.pythonInclude
  withSql : options.withSql = record.withSql
  staticLib : options.staticLib = record.staticLib
  coverage : options.coverage = record.coverage
  profiling : options.profiling = record.profiling
  verbose : options.verbose = record.verbose
  dryRun : options.dryRun = record.dryRun

/-- Options are accepted as a record exactly if each field of the record is what its option is
validated to. -/
theorem ofOptions_eq_ok :
    ofOptions options platform = .ok record ↔ Validates options platform record := by
  simp only [ofOptions, bind_eq_ok]
  constructor
  · rintro ⟨compiler, chosen, seed, seeded, action, acts, mode, moded, target, targeted, threads,
      threaded, tests, tested, made⟩
    cases made
    exact ⟨chosen, seeded, acts, moded, targeted, threaded, tested, rfl, rfl, rfl, rfl, rfl, rfl,
      rfl, rfl, rfl, rfl, rfl, rfl⟩
  · intro h
    refine ⟨_, h.compiler, _, h.seed, _, h.action, _, h.mode, _, h.target, _, h.threads, _, h.tests,
      ?_⟩
    rw [h.modules, h.compilerDir, h.jobs, h.destination, h.pythonLibrary, h.pythonInclude,
      h.withSql, h.staticLib, h.coverage, h.profiling, h.verbose, h.dryRun]
    rfl

/-- **Validation is a projection.** A record is written as options that are validated to exactly
this record on its platform. Where no seed is fixed, it does not matter which `unused` text stands
in its place. -/
theorem ofOptions_toOptions (validated : ofOptions options platform = .ok record)
    (unused : String) :
    ofOptions { record.toOptions with seed := record.seed.getD unused } platform = .ok record := by
  have made := ofOptions_eq_ok.mp validated
  obtain ⟨asked, proper⟩ := BuildOptions.seedText_eq_ok made.seed
  refine ofOptions_eq_ok.mpr {
    compiler := BuildOptions.compilerFor_name rfl
      (BuildOptions.permittedOn_of_compilerFor made.compiler)
    seed := BuildOptions.seedText_accepted rfl rfl proper
    action := Action.parse_name _
    mode := Mode.parse_name _
    target := Target.parse_name _
    threads := Threads.parse_name _
    tests := (TestScope.settled_parse made.tests).parse_shown
    modules := ?modules
    compilerDir := ?compilerDir
    jobs := ?jobs
    destination := rfl
    pythonLibrary := ?pythonLibrary
    pythonInclude := ?pythonInclude
    withSql := rfl
    staticLib := rfl
    coverage := rfl
    profiling := rfl
    verbose := rfl
    dryRun := rfl }
  case modules =>
    have canonical := ModuleSet.canonical_parse options.modules
    rw [made.modules] at canonical
    exact canonical.parse_shown
  case compilerDir =>
    change record.compilerDir.bind _ = _
    rw [← made.compilerDir, Text.bind_nonBlank?_bind]
  case jobs =>
    change Text.trim record.jobs = _
    rw [← made.jobs, Text.trim_trim]
  case pythonLibrary =>
    change record.pythonLibrary.bind _ = _
    rw [← made.pythonLibrary, Text.bind_nonBlank?_bind]
  case pythonInclude =>
    change record.pythonInclude.bind _ = _
    rw [← made.pythonInclude, Text.bind_nonBlank?_bind]

/-- Names in any case and with blanks around them, a part of the tests with a separator in it, a
blank directory and a seed with a sign: the record says the same in its own spelling. -/
theorem ofOptions_toOptions_respelled :
    let options : BuildOptions :=
      { action := " TEST ", modules := "bn+ agrum +\u00df+ id +bn", tests := " Quick: a:b ",
        compiler := some " GCC ", compilerDir := some "  ", jobs := " 4 ", seed := " +7 ",
        fixedSeed := true }
    ∃ record, ofOptions options .unix = .ok record ∧ record.toOptions ≠ options ∧
      record.modules.shown = "BN+ID+SS+aGrUM" ∧ record.tests.shown = "quick: a:b" ∧
      ofOptions record.toOptions .unix = .ok record := by
  intro options
  have validated : ofOptions options .unix = .ok
      { action := .test, mode := .release, target := .library,
        modules := ⟨["BN", "ID", "SS", "aGrUM"]⟩, compiler := .gcc, compilerDir := none,
        threads := .omp, jobs := "4", tests := .quick (some " a:b"), destination := "/usr/local",
        pythonLibrary := none, pythonInclude := none, seed := some "+7", withSql := false,
        staticLib := false, coverage := false, profiling := false, verbose := false,
        dryRun := false } := by
    refine ofOptions_eq_ok.mpr ?_
    constructor <;> try dsimp only [options]
    case modules => decide +kernel
    all_goals rfl
  exact ⟨_, validated, by decide, by decide, by decide, ofOptions_toOptions validated "10"⟩

end BuildRecord
end BuildWarden
