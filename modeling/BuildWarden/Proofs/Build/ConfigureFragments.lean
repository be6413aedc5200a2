import BuildWarden.Build.Lines
import BuildWarden.Proofs.Build.Acceptance
/-!
# Fragments of the configure line

The configure line of a validated record always exists: the platform that accepted the options has
the compiler. Its fragments are the tool, the source, and entries. What holds of each kind of entry
holds of all of them.
-/

namespace BuildWarden.BuildRecord

/-- The fragments between the tool and the destination. -/
def beforeDestination (record : BuildRecord) : List String :=
  ["../..", definition "CMAKE_EXPORT_COMPILE_COMMANDS" "ON",
    definition "CMAKE_BUILD_TYPE" (buildType record.mode),
    definition "USE_NANODBC" (onOff record.withSql)]

/-- The fragments behind the destination, with the given ones to select the compiler. -/
def behindDestination (record : BuildRecord) (toolchain : List String) : List String :=
  [definition "CMAKE_VERBOSE_MAKEFILE" (onOff record.verbose),
    definition "BUILD_SHARED_LIBS" (onOff !record.staticLib),
    definition "GUM_COVERAGE" (onOff record.coverage),
    definition "BUILD_ALL" "OFF"]
  ++ record.modules.names.map (fun name => definition ("BUILD_" ++ name) "ON")
  ++ [definition "GUM_RANDOMSEED" (record.seed.getD "0"),
    definition "BUILD_PYTHON" (onOff (record.target = .binding))]
  ++ record.pythonEntries ++ toolchain ++ record.configureTail

/-- The fragments that select a C and a C++ compiler. -/
def compilerEntries (record : BuildRecord) (c cxx : String) : List String :=
  [definition "CMAKE_C_COMPILER" (record.compilerPath c),
    definition "CMAKE_CXX_COMPILER" (record.compilerPath cxx)]

/-- The Python installation, where the line names it. -/
def pythonValues (record : BuildRecord) : List String :=
  match record.target with
  | .library => []
  | .binding => record.pythonLibrary.toList ++ record.pythonInclude.toList

/-! ### The line -/

section Line
variable {options : BuildOptions} {platform : Platform} {record : BuildRecord} {context : Context}
  {toolchain : List String}

/-- A definition spelled out, letter by letter. -/
theorem toList_definition (key value : String) :
    (definition key value).toList = ('-' :: 'D' :: key.toList) ++ '=' :: value.toList := by
  simp [definition, String.toList_append]

/-- The fragments of the configure line, with blanks between them. -/
theorem configureLine_of_toolchain (selected : record.toolchain context.platform = .ok toolchain) :
    record.configureLine context = .ok (Text.joined " " (context.tools.cmake ::
      (record.beforeDestination ++
        definition "CMAKE_INSTALL_PREFIX" ("\"" ++ record.destination ++ "\"") ::
          record.behindDestination toolchain))) := by
  have fragments : record.configureHead context.tools ++ toolchain ++ record.configureTail =
      context.tools.cmake :: (record.beforeDestination ++
        definition "CMAKE_INSTALL_PREFIX" ("\"" ++ record.destination ++ "\"") ::
          record.behindDestination toolchain) := by
    simp only [configureHead, beforeDestination, behindDestination, List.append_assoc,
      List.cons_append, List.nil_append]
  rw [← fragments, configureLine, selected]
  rfl

/-- The platform that validated a record has its compiler. -/
theorem exists_toolchain (validated : ofOptions options platform = .ok record) :
    ∃ toolchain, record.toolchain platform = .ok toolchain := by
  have made := ofOptions_eq_ok.mp validated
  rw [BuildRecord.toolchain, if_pos (BuildOptions.permittedOn_of_compilerFor made.compiler)]
  split
  · exact ⟨_, rfl⟩
  · exact ⟨_, rfl⟩

/-- A seed that was accepted has digits only, perhaps behind a plus sign. -/
theorem digits_of_mem_seed (validated : ofOptions options platform = .ok record) {text : String}
    (given : text ∈ record.seed) : ∀ c ∈ text.toList, c.isDigit = true ∨ c = '+' := by
  have made := ofOptions_eq_ok.mp validated
  obtain ⟨trimmed, seed⟩ := (BuildOptions.seedText_eq_ok made.seed).2 text given
  rw [← trimmed] at seed
  obtain ⟨digits, spelled, number⟩ := OptionCheck.isSeed_trim_iff.mp seed
  rw [trimmed] at spelled
  rcases spelled with same | same
  · rw [same]
    exact fun c member => .inl (number.proper c member)
  · rw [same]
    exact List.forall_mem_cons.mpr ⟨.inr rfl, fun c member => .inl (number.proper c member)⟩

/-- So has the value that the line holds for the seed, fixed or not. -/
theorem digits_of_seed (validated : ofOptions options platform = .ok record) :
    ∀ c ∈ (record.seed.getD "0").toList, c.isDigit = true ∨ c = '+' := by
  cases given : record.seed with
  | none => exact List.forall_mem_singleton.mpr (.inl rfl)
  | some text => exact digits_of_mem_seed validated given

end Line

/-! ### Kinds of entries -/

/-- The keys of the entries that switches and words of the options decide on. -/
def fixedKeys : List String :=
  ["CMAKE_EXPORT_COMPILE_COMMANDS", "CMAKE_BUILD_TYPE", "USE_NANODBC", "CMAKE_VERBOSE_MAKEFILE",
    "BUILD_SHARED_LIBS", "GUM_COVERAGE", "BUILD_ALL", "CMAKE_GUM_THREADS", "GUM_PROFILING"]

/-- Their values. -/
def fixedValues : List String :=
  ["ON", "OFF", "RELEASE", "DEBUG", "omp", "std"]

/-- The keys of the entries for the Python installation. -/
def pythonKeys : List String :=
  ["PYTHON_LIBRARY", "PYTHON_INCLUDE_DIR"]

private theorem onOff_mem_fixedValues (flag : Bool) : onOff flag ∈ fixedValues := by
  cases flag <;> decide

section Kinds
variable {record : BuildRecord} {holds : String → Prop}

private theorem forall_mem_pythonEntries
    (python : ∀ key ∈ pythonKeys, ∀ value ∈ record.pythonValues, holds (definition key value)) :
    ∀ part ∈ record.pythonEntries, holds part := by
  unfold pythonEntries
  unfold pythonValues at python
  cases target : record.target with
  | library => exact List.forall_mem_nil _
  | binding =>
      rw [target] at python
      intro part member
      rcases List.mem_append.mp member with library | directory
      · obtain ⟨value, given, rfl⟩ := Option.map_eq_some_iff.mp (Option.mem_toList.mp library)
        exact python _ (by decide) value (by simp [given])
      · obtain ⟨value, given, rfl⟩ := Option.map_eq_some_iff.mp (Option.mem_toList.mp directory)
        exact python _ (by decide) value (by simp [given])

/-- Each of the values has its entry. -/
theorem exists_pythonEntry {value : String} (given : value ∈ record.pythonValues) :
    ∃ key, definition key value ∈ record.pythonEntries := by
  unfold pythonEntries
  unfold pythonValues at given
  cases target : record.target with
  | library =>
      rw [target] at given
      cases given
  | binding =>
      rw [target] at given
      rcases List.mem_append.mp given with library | directory
      · have entry :=
          Option.mem_map_of_mem (definition "PYTHON_LIBRARY") (Option.mem_toList.mp library)
        exact ⟨_, List.mem_append_left _ (Option.mem_toList.mpr entry)⟩
      · have entry :=
          Option.mem_map_of_mem (definition "PYTHON_INCLUDE_DIR") (Option.mem_toList.mp directory)
        exact ⟨_, List.mem_append_right _ (Option.mem_toList.mpr entry)⟩

variable (fixed : ∀ key ∈ fixedKeys, ∀ value ∈ fixedValues, holds (definition key value))
include fixed

/-- What holds of each kind of part holds of all parts behind the destination. -/
theorem forall_mem_tail : ∀ part ∈ record.configureTail, holds part := by
  have threads : record.threads.name ∈ fixedValues := by cases record.threads <;> decide
  refine List.forall_mem_cons.mpr ⟨fixed _ (by decide) _ threads, ?_⟩
  split
  · exact List.forall_mem_singleton.mpr (fixed _ (by decide) _ (by decide))
  · exact List.forall_mem_nil _

/-- What holds of each kind of part, the path to the sources included, holds of all parts in front
of the destination. -/
theorem forall_mem_before (source : holds "../..") :
    ∀ part ∈ record.beforeDestination, holds part := by
  have mode : buildType record.mode ∈ fixedValues := by cases record.mode <;> decide
  simp only [beforeDestination, List.forall_mem_cons]
  refine ⟨source, ?_, ?_, ?_, List.forall_mem_nil _⟩
  · exact fixed _ (by decide) _ (by decide)
  · exact fixed _ (by decide) _ mode
  · exact fixed _ (by decide) _ (onOff_mem_fixedValues _)

/-- **What stands behind the destination**: entries with fixed values, one for each module, those
for the seed and for Python, and the selection of the compiler. -/
theorem forall_mem_behind {toolchain : List String}
    (module : ∀ name ∈ record.modules.names, holds (definition ("BUILD_" ++ name) "ON"))
    (seed : holds (definition "GUM_RANDOMSEED" (record.seed.getD "0")))
    (switch : holds (definition "BUILD_PYTHON" (onOff (record.target = .binding))))
    (python : ∀ key ∈ pythonKeys, ∀ value ∈ record.pythonValues, holds (definition key value))
    (selection : ∀ part ∈ toolchain, holds part) :
    ∀ part ∈ record.behindDestination toolchain, holds part := by
  simp only [behindDestination, List.forall_mem_append, List.forall_mem_cons]
  refine ⟨⟨⟨⟨⟨⟨?_, ?_, ?_, ?_, List.forall_mem_nil _⟩, List.forall_mem_map.mpr module⟩,
    seed, switch, List.forall_mem_nil _⟩, forall_mem_pythonEntries python⟩, selection⟩,
    forall_mem_tail fixed⟩
  · exact fixed _ (by decide) _ (onOff_mem_fixedValues _)
  · exact fixed _ (by decide) _ (onOff_mem_fixedValues _)
  · exact fixed _ (by decide) _ (onOff_mem_fixedValues _)
  · exact fixed _ (by decide) _ (by decide)

end Kinds
end BuildWarden.BuildRecord
