import BuildWarden.Command.BuildArguments
import BuildWarden.Proofs.Settings.Leaves
/-!
# Arguments over configured options

An argument of a build that is given hides the configured value of its option, and no other. So what
an invocation comes to depends on the configured options only where neither the action, nor an
argument, nor a switch of the session stands over them.
-/

namespace BuildWarden.Command

open Settings

/-! ### Arguments by key -/

private theorem text_getD (argument : Option String) (value : String) :
    some (Scalar.text (argument.getD value)) =
      (argument.map Scalar.text).or (some (.text value)) := by
  cases argument <;> rfl

private theorem boolean_getD (argument : Option Bool) (value : Bool) :
    some (Scalar.boolean (argument.getD value)) =
      (argument.map Scalar.boolean).or (some (.boolean value)) := by
  cases argument <;> rfl

namespace BuildArguments

/-- The arguments by the keys of the options that they stand over. -/
def flags (arguments : BuildArguments) : Leaves :=
  [("target", arguments.target.map .text), ("mode", arguments.mode.map .text),
    ("modules", arguments.modules.map .text), ("jobs", arguments.jobs.map .text),
    ("tests", arguments.tests.map .text), ("compiler", arguments.compiler.map .text),
    ("compiler_dir", arguments.compilerDir.map .text),
    ("destination", arguments.destination.map .text), ("threads", arguments.threads.map .text),
    ("python3lib", arguments.pythonLibrary.map .text),
    ("python3include", arguments.pythonInclude.map .text),
    ("with_sql", arguments.withSql.map .boolean), ("static_lib", arguments.staticLib.map .boolean),
    ("coverage", arguments.coverage.map .boolean),
    ("profiling", arguments.profiling.map .boolean),
    ("fixed_seed", arguments.fixedSeed.map .boolean)]

/-- The argument that is given for an option. -/
def flag? (arguments : BuildArguments) (key : String) : Option Scalar :=
  arguments.flags.value? key

/-- The later arguments where they are given, and the earlier ones elsewhere. -/
def onto (later earlier : BuildArguments) : BuildArguments where
  target := later.target.or earlier.target
  mode := later.mode.or earlier.mode
  modules := later.modules.or earlier.modules
  jobs := later.jobs.or earlier.jobs
  tests := later.tests.or earlier.tests
  compiler := later.compiler.or earlier.compiler
  compilerDir := later.compilerDir.or earlier.compilerDir
  destination := later.destination.or earlier.destination
  threads := later.threads.or earlier.threads
  pythonLibrary := later.pythonLibrary.or earlier.pythonLibrary
  pythonInclude := later.pythonInclude.or earlier.pythonInclude
  withSql := later.withSql.or earlier.withSql
  staticLib := later.staticLib.or earlier.staticLib
  coverage := later.coverage.or earlier.coverage
  profiling := later.profiling.or earlier.profiling
  fixedSeed := later.fixedSeed.or earlier.fixedSeed

variable (arguments later earlier : BuildArguments) (options : BuildOptions) (key : String)

/-- These options of a build have no argument. -/
theorem flag?_eq_none {key : String}
    (without : key ∈ ["action", "fixed_seed_value", "verbose", "dry_run"]) :
    arguments.flag? key = none := by
  have apart : ∀ key ∈ ["action", "fixed_seed_value", "verbose", "dry_run"],
      key ∉ (flags {}).map Prod.fst := by decide
  exact Leaves.value?_eq_none (apart key without)

/-- All arguments have the same keys. -/
theorem mem_flags {key : String} (given : (arguments.flag? key).isSome = true) :
    key ∈ earlier.flags.map Prod.fst := by
  have held : key ∈ arguments.flags.map Prod.fst := Leaves.mem_of_value? given
  exact held

/-- Arguments stand for options. -/
theorem mem_options {key : String} (given : (arguments.flag? key).isSome = true) :
    key ∈ options.leaves.map Prod.fst := by
  have known : ∀ key ∈ (flags {}).map Prod.fst,
      key ∈ (BuildOptions.leaves {}).map Prod.fst := by decide
  exact known key (mem_flags arguments {} given)

private theorem leaves_apply :
    (arguments.apply options).leaves = options.leaves.under arguments.flag? := by
  simp only [apply, BuildOptions.leaves, text_getD, boolean_getD, Option.map_or]
  rfl

/-- **Each option has the value of its argument, if there is one, and else the configured one.** -/
theorem leaf?_apply :
    (arguments.apply options).leaf? key = (arguments.flag? key).or (options.leaf? key) := by
  rw [BuildOptions.leaf?, leaves_apply, Leaves.value?_under]
  · rfl
  · exact fun key given => mem_options arguments options given

private theorem flags_onto : (later.onto earlier).flags = earlier.flags.under later.flag? := by
  simp only [onto, flags, Option.map_or]
  rfl

private theorem flag?_onto :
    (later.onto earlier).flag? key = (later.flag? key).or (earlier.flag? key) := by
  rw [flag?, flags_onto, Leaves.value?_under]
  · rfl
  · exact fun key given => mem_flags later earlier given

/-- **Arguments that follow others are laid over them.** -/
theorem apply_apply : later.apply (earlier.apply options) = (later.onto earlier).apply options := by
  refine BuildOptions.eq_of_leaf? fun key => ?_
  rw [leaf?_apply, leaf?_apply, leaf?_apply, flag?_onto, Option.or_assoc]

end BuildArguments

/-! ### Invocations -/

section Invocation
variable (action : Action) (arguments : BuildArguments) (verbose dryRun : Bool)
  (options : BuildOptions) (key : String)

/-- What an invocation says about the options, whatever is configured. -/
def said : Leaves :=
  ("action", some (.text action.name)) ::
    ("verbose", if verbose then some (.boolean true) else none) ::
    ("dry_run", if dryRun then some (.boolean true) else none) :: arguments.flags

/-- The options that an invocation masks: the action, those with an argument, and the switches that
the session turns on. -/
def Masks (key : String) : Prop :=
  key = "action" ∨ (arguments.flag? key).isSome = true ∨ (key = "verbose" ∧ verbose = true) ∨
    (key = "dry_run" ∧ dryRun = true)

/-- An invocation says something about the options that it masks, and about no others. -/
theorem masks_iff : Masks arguments verbose dryRun key ↔
    ((said action arguments verbose dryRun).value? key).isSome = true := by
  have no_verbose : arguments.flag? "verbose" = none := arguments.flag?_eq_none (by simp)
  have no_dry_run : arguments.flag? "dry_run" = none := arguments.flag?_eq_none (by simp)
  simp only [said, Leaves.value?_cons, Masks]
  -- no argument hides behind the entries in front, so each of these decides alone about its key
  by_cases first : key = "action"
  · simp [first]
  by_cases second : key = "verbose"
  · simp [second, no_verbose]
  by_cases third : key = "dry_run"
  · simp [third, no_dry_run]
  · simp [first, second, third, BuildArguments.flag?]

private theorem leaves_resolvedOptions :
    (resolvedOptions action arguments verbose dryRun options).leaves =
      options.leaves.under (said action arguments verbose dryRun).value? := by
  have added (configured switch : Bool) : some (Scalar.boolean (configured || switch)) =
      (if switch then some (.boolean true) else none).or (some (.boolean configured)) := by
    cases switch <;> simp
  simp only [resolvedOptions, BuildArguments.apply, BuildOptions.leaves, text_getD, boolean_getD,
    added, Option.map_or]
  rfl

/-- Each option has the value that the invocation says, if it does, and else the configured one. -/
theorem leaf?_resolvedOptions :
    (resolvedOptions action arguments verbose dryRun options).leaf? key =
      ((said action arguments verbose dryRun).value? key).or (options.leaf? key) := by
  rw [BuildOptions.leaf?, leaves_resolvedOptions, Leaves.value?_under]
  · rfl
  · intro key given
    have known : ∀ key ∈ ["action", "verbose", "dry_run"],
        key ∈ (BuildOptions.leaves {}).map Prod.fst := by decide
    rcases (masks_iff action arguments verbose dryRun key).mpr given with
      rfl | flagged | ⟨rfl, -⟩ | ⟨rfl, -⟩
    · exact known _ (by simp)
    · exact arguments.mem_options options flagged
    · exact known _ (by simp)
    · exact known _ (by simp)

/-- **What an invocation comes to depends on the options that it does not mask, and no others.** -/
theorem resolvedOptions_eq_iff (other : BuildOptions) :
    resolvedOptions action arguments verbose dryRun options =
        resolvedOptions action arguments verbose dryRun other ↔
      ∀ key, ¬Masks arguments verbose dryRun key → options.leaf? key = other.leaf? key := by
  constructor
  · intro same key unmasked
    have shown := congrArg (·.leaf? key) same
    simp only [leaf?_resolvedOptions] at shown
    rw [masks_iff action, Bool.not_eq_true, Option.isSome_eq_false_iff, Option.isNone_iff_eq_none]
      at unmasked
    rwa [unmasked] at shown
  · intro agree
    refine BuildOptions.eq_of_leaf? fun key => ?_
    rw [leaf?_resolvedOptions, leaf?_resolvedOptions]
    by_cases masked : Masks arguments verbose dryRun key
    · obtain ⟨value, given⟩ := Option.isSome_iff_exists.mp ((masks_iff action ..).mp masked)
      rw [given]
      rfl
    · rw [agree key masked]

end Invocation

/-- **Arguments mask the configured values of their options, and nothing else.** Configured options
that differ only where an invocation masks them come to the same record or to the same fault, and
those that differ elsewhere come to different options. An argument decides about its own option, the
action, the seed and the switches of the session have none, and arguments that follow others are
laid over them. -/
theorem resolve_masks (action : Action) (arguments : BuildArguments) (verbose dryRun : Bool) :
    (∀ options other platform,
      (∀ key, ¬Masks arguments verbose dryRun key → options.leaf? key = other.leaf? key) →
      resolve action arguments verbose dryRun options platform =
        resolve action arguments verbose dryRun other platform) ∧
    (∀ options other,
      resolvedOptions action arguments verbose dryRun options =
          resolvedOptions action arguments verbose dryRun other ↔
        ∀ key, ¬Masks arguments verbose dryRun key → options.leaf? key = other.leaf? key) ∧
    (∀ options key, (arguments.apply options).leaf? key =
      (arguments.flag? key).or (options.leaf? key)) ∧
    (∀ key ∈ ["action", "fixed_seed_value", "verbose", "dry_run"], arguments.flag? key = none) ∧
    ∀ (later : BuildArguments) options,
      later.apply (arguments.apply options) = (later.onto arguments).apply options := by
  refine ⟨fun options other platform agree => ?_, ?_, ?_, ?_, ?_⟩
  · rw [resolve, resolve, (resolvedOptions_eq_iff ..).mpr agree]
  · exact resolvedOptions_eq_iff action arguments verbose dryRun
  · exact arguments.leaf?_apply
  · exact fun key => arguments.flag?_eq_none
  · exact fun later options => BuildArguments.apply_apply later arguments options

/-- A configured mode that does not exist is hidden by an argument, and refused without one. -/
theorem resolve_masks_unknown_mode :
    resolve .lib { mode := some "debug" } false false { mode := "fast" } .unix =
        resolve .lib { mode := some "debug" } false false {} .unix ∧
      resolve .lib {} false false { mode := "fast" } .unix =
        .error (.invalidOption "mode" "fast" "release, debug") := by
  refine ⟨(resolve_masks .lib { mode := some "debug" } false false).1 _ _ _ fun key unmasked => ?_,
    rfl⟩
  have other : key ≠ "mode" := fun same => unmasked (.inr (.inl (same ▸ rfl)))
  have replaced : ({ mode := "fast" } : BuildOptions).leaves =
      (BuildOptions.leaves {}).replaced "mode" (.text "fast") := rfl
  rw [BuildOptions.leaf?, replaced, Leaves.value?_replaced (by decide), if_neg other]
  rfl

end BuildWarden.Command
