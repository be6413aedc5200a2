import BuildWarden.Proofs.Build.ConfigureFragments
import BuildWarden.Proofs.Shell.Splitting
/-!
# What the configure line hands over

The shell splits the configure line at its blanks. The destination stands between quotes and stays
whole. The directory of the compilers and the Python installation do not, and are handed over whole
only if there is no blank in them.
-/

namespace BuildWarden

open Shell (Inert Plain Unquoted blankWords)

namespace Compiler

/-! ### What compilers select -/

variable {compiler : Compiler} {platform : Platform} {c cxx : String}

/-- A compiler that is permitted on a platform belongs to it. -/
theorem platform_of_permittedOn (permitted : compiler.permittedOn platform = true) :
    compiler.platform = platform :=
  of_decide_eq_true permitted

/-- On a Unix host a compiler is chosen by its two programs. -/
theorem exists_executables (here : compiler.platform = .unix) :
    ∃ c cxx, compiler.selection = .executables c cxx := by
  cases compiler with
  | gcc | clang => exact ⟨_, _, rfl⟩
  | studio | mingw => cases here

/-- The executables of Unix have plain names without a slash. -/
theorem name_of_executables (selected : compiler.selection = .executables c cxx) :
    (Plain c ∧ '/' ∉ c.toList) ∧ Plain cxx ∧ '/' ∉ cxx.toList := by
  cases compiler with
  | gcc | clang =>
      cases selected
      decide
  | studio | mingw => cases selected

end Compiler

namespace BuildRecord

/-- The values that stand in the line without quotes. -/
def bareValues (record : BuildRecord) : List String :=
  record.compilerDir.toList ++ record.pythonValues

/-- The arguments that the line is to hand over, each value whole. -/
def arguments (record : BuildRecord) (c cxx : String) : List String :=
  record.beforeDestination ++ definition "CMAKE_INSTALL_PREFIX" record.destination ::
    record.behindDestination (record.compilerEntries c cxx)

section Fragments
variable {record : BuildRecord} {c cxx : String}

private theorem definition_destination (value : String) :
    definition "CMAKE_INSTALL_PREFIX" value = "-DCMAKE_INSTALL_PREFIX=" ++ value := by
  have front : "-D" ++ "CMAKE_INSTALL_PREFIX" ++ "=" = "-DCMAKE_INSTALL_PREFIX=" := by decide
  rw [definition, front]

private theorem definition_ne_empty (key value : String) : definition key value ≠ "" := by
  intro none
  have none := congrArg String.toList none
  rw [toList_definition] at none
  cases none

private theorem ne_empty_of_mem_before : ∀ part ∈ record.beforeDestination, part ≠ "" :=
  forall_mem_before (fun key _ value _ => definition_ne_empty key value) (by decide)

private theorem ne_empty_of_mem_behind :
    ∀ part ∈ record.behindDestination (record.compilerEntries c cxx), part ≠ "" := by
  refine forall_mem_behind ?_ ?_ (definition_ne_empty _ _) (definition_ne_empty _ _) ?_ ?_
  · exact fun key _ value _ => definition_ne_empty key value
  · exact fun name _ => definition_ne_empty _ _
  · exact fun key _ value _ => definition_ne_empty key value
  · exact List.forall_mem_cons.mpr ⟨definition_ne_empty _ _,
      List.forall_mem_singleton.mpr (definition_ne_empty _ _)⟩

/-! ### Characters -/

/-- All characters of a text are among some. -/
def MadeOf (among : Char → Prop) (text : String) : Prop :=
  ∀ c ∈ text.toList, among c

section MadeOf
variable {among : Char → Prop}

/-- What is put together from allowed letters has no other letters. -/
theorem madeOf_append {front back : String} (first : MadeOf among front)
    (second : MadeOf among back) : MadeOf among (front ++ back) := by
  rw [MadeOf, String.toList_append]
  exact List.forall_mem_append.mpr ⟨first, second⟩

private theorem madeOf_dropSlashes {dir : String} (made : MadeOf among dir) :
    MadeOf among (dropSlashes dir) := by
  intro c member
  rw [dropSlashes, String.toList_ofList] at member
  exact made c ((List.rdropWhile_prefix _ _).subset member)

variable (plain : ∀ c, Shell.isPlain c = true → among c)
include plain

private theorem madeOf_plain {text : String} (all : Plain text) : MadeOf among text :=
  fun c member => plain c (all c member)

/-- So a definition has no other letters than its key and its value. -/
theorem madeOf_definition {key value : String} (madeKey : MadeOf among key)
    (made : MadeOf among value) : MadeOf among (definition key value) := by
  have dash : MadeOf among "-D" := madeOf_plain plain (by decide)
  have sign : MadeOf among "=" := madeOf_plain plain (by decide)
  exact madeOf_append (madeOf_append (madeOf_append dash madeKey) sign) made

private theorem madeOf_compilerPath (dir : ∀ dir ∈ record.compilerDir, MadeOf among dir)
    {executable : String} (made : MadeOf among executable) :
    MadeOf among (record.compilerPath executable) := by
  unfold compilerPath
  split
  next found given =>
    have slash : MadeOf among "/" := madeOf_plain plain (by decide)
    exact madeOf_append (madeOf_append (madeOf_dropSlashes (dir found given)) slash) made
  next => exact made

private theorem madeOf_fixed :
    ∀ key ∈ fixedKeys, ∀ value ∈ fixedValues, MadeOf among (definition key value) := by
  have keys : ∀ key ∈ fixedKeys, Plain key := by decide
  have values : ∀ value ∈ fixedValues, Plain value := by decide
  intro key known value fixed
  exact madeOf_definition plain (madeOf_plain plain (keys key known))
    (madeOf_plain plain (values value fixed))

/-- The parts in front of the destination have no other letters than the values they show. -/
theorem madeOf_before : ∀ part ∈ record.beforeDestination, MadeOf among part :=
  forall_mem_before (madeOf_fixed plain) (madeOf_plain plain (by decide))

/-- Behind the destination there are no other characters than plain ones and those of what the
options name. -/
theorem madeOf_named {toolchain : List String}
    (modules : ∀ name ∈ record.modules.names, MadeOf among name)
    (seed : MadeOf among (record.seed.getD "0"))
    (python : ∀ value ∈ record.pythonValues, MadeOf among value)
    (selection : ∀ part ∈ toolchain, MadeOf among part) :
    ∀ part ∈ record.behindDestination toolchain, MadeOf among part := by
  have keyed {key value : String} (plainKey : Plain key) (made : MadeOf among value) :
      MadeOf among (definition key value) :=
    madeOf_definition plain (madeOf_plain plain plainKey) made
  have switch : Plain (onOff (record.target = .binding)) := by
    cases record.target <;> decide
  have pythonPlain : ∀ key ∈ pythonKeys, Plain key := by decide
  refine forall_mem_behind (madeOf_fixed plain) ?_ (keyed (by decide) seed)
    (keyed (by decide) (madeOf_plain plain switch)) ?_ selection
  · intro name listed
    have front : MadeOf among "BUILD_" := madeOf_plain plain (by decide)
    exact madeOf_definition plain (madeOf_append front (modules name listed))
      (madeOf_plain plain (by decide))
  · exact fun key known value given => keyed (pythonPlain key known) (python value given)

/-- The parts that choose the compiler have no other letters than its directory. -/
theorem madeOf_compilerEntries (dir : ∀ dir ∈ record.compilerDir, MadeOf among dir)
    (plainC : Plain c) (plainCxx : Plain cxx) :
    ∀ part ∈ record.compilerEntries c cxx, MadeOf among part := by
  have path {key executable : String} (plainKey : Plain key) (plainExecutable : Plain executable) :
      MadeOf among (definition key (record.compilerPath executable)) :=
    madeOf_definition plain (madeOf_plain plain plainKey)
      (madeOf_compilerPath plain dir (madeOf_plain plain plainExecutable))
  exact List.forall_mem_cons.mpr ⟨path (by decide) plainC,
    List.forall_mem_singleton.mpr (path (by decide) plainCxx)⟩

/-- The same, where the compilers are selected and the modules have plain names. -/
theorem madeOf_behind (values : ∀ value ∈ record.bareValues, MadeOf among value)
    (modules : ∀ name ∈ record.modules.names, Plain name) (seed : Plain (record.seed.getD "0"))
    (plainC : Plain c) (plainCxx : Plain cxx) :
    ∀ part ∈ record.behindDestination (record.compilerEntries c cxx), MadeOf among part := by
  obtain ⟨dir, python⟩ := List.forall_mem_append.mp values
  exact madeOf_named plain (fun name listed => madeOf_plain plain (modules name listed))
    (madeOf_plain plain seed) python
    (madeOf_compilerEntries plain (fun found given => dir found (Option.mem_toList.mpr given))
      plainC plainCxx)

end MadeOf

/-! ### Blanks -/

private theorem blank_not_mem {text : String} (plain : Plain text) : ' ' ∉ text.toList :=
  fun blank => absurd (plain ' ' blank) (by decide)

private theorem mem_definition {key value : String} {d : Char} (inside : d ∈ value.toList) :
    d ∈ (definition key value).toList := by
  rw [toList_definition]
  exact List.mem_append_right _ (List.mem_cons_of_mem _ inside)

private theorem blank_mem_dropSlashes {dir : String} (blank : ' ' ∈ dir.toList) :
    ' ' ∈ (dropSlashes dir).toList := by
  rw [dropSlashes, String.toList_ofList, List.mem_reverse]
  have all := List.mem_reverse.mpr blank
  rw [← List.takeWhile_append_dropWhile (p := fun c => c = '/' || c = '\\')
    (l := dir.toList.reverse)] at all
  rcases List.mem_append.mp all with slash | kept
  · exact absurd (List.mem_takeWhile_imp slash) (by decide)
  · exact kept

/-- A blank in one of the values is a blank behind the destination. -/
theorem exists_blank_behind {value : String} (bare : value ∈ record.bareValues)
    (blank : ' ' ∈ value.toList) :
    ∃ part ∈ record.behindDestination (record.compilerEntries c cxx), ' ' ∈ part.toList := by
  rcases List.mem_append.mp bare with dir | python
  · have given : record.compilerDir = some value := Option.mem_toList.mp dir
    have path : ' ' ∈ (record.compilerPath c).toList := by
      simp only [compilerPath, given, String.toList_append, List.mem_append]
      exact .inl (.inl (blank_mem_dropSlashes blank))
    refine ⟨definition "CMAKE_C_COMPILER" (record.compilerPath c), ?_, mem_definition path⟩
    simp [behindDestination, compilerEntries]
  · obtain ⟨key, entry⟩ := exists_pythonEntry python
    refine ⟨definition key value, ?_, mem_definition blank⟩
    simp only [behindDestination, List.mem_append]
    exact .inl (.inl (.inr entry))

end Fragments

/-! ### The line -/

section Line
variable {options : BuildOptions} {record : BuildRecord} {context : Context} {tool : String}

/-- The compilers of Unix are selected by their executables. -/
theorem exists_executables (validated : ofOptions options .unix = .ok record) :
    ∃ c cxx, record.compiler.selection = .executables c cxx ∧ Plain c ∧ Plain cxx := by
  have permitted := BuildOptions.permittedOn_of_compilerFor (ofOptions_eq_ok.mp validated).compiler
  obtain ⟨c, cxx, selected⟩ :=
    Compiler.exists_executables (Compiler.platform_of_permittedOn permitted)
  obtain ⟨⟨plainC, -⟩, plainCxx, -⟩ := Compiler.name_of_executables selected
  exact ⟨c, cxx, selected, plainC, plainCxx⟩

private theorem plain_seed (validated : ofOptions options .unix = .ok record) :
    Plain (record.seed.getD "0") := by
  intro d member
  rcases digits_of_seed validated d member with digit | rfl
  · exact Shell.isPlain_of_isAlphanum (Bool.or_eq_true_iff.mpr (.inr digit))
  · decide

/-- **What the shell makes of the configure line.** The destination is always handed over whole. The
other values fall apart at their blanks, so that the intended arguments are handed over if and only
if there is no blank in the values without quotes that the line uses. -/
theorem configureLine_splits (validated : ofOptions options .unix = .ok record)
    (here : context.platform = .unix) (cmake : Shell.IsOneWord context.tools.cmake tool)
    (destination : Inert record.destination)
    (values : ∀ value ∈ record.bareValues, Unquoted value)
    (modules : ∀ name ∈ record.modules.names, Plain name) :
    ∃ line c cxx, record.configureLine context = .ok line ∧
      record.compiler.selection = .executables c cxx ∧
      Shell.Splits line (tool :: (record.beforeDestination ++
        definition "CMAKE_INSTALL_PREFIX" record.destination ::
          (record.behindDestination (record.compilerEntries c cxx)).flatMap blankWords)) ∧
      (Shell.Splits line (tool :: record.arguments c cxx) ↔
        ∀ value ∈ record.bareValues, ' ' ∉ value.toList) := by
  obtain ⟨c, cxx, family, plainC, plainCxx⟩ := exists_executables validated
  have permitted := BuildOptions.permittedOn_of_compilerFor (ofOptions_eq_ok.mp validated).compiler
  have seed := plain_seed validated
  have selected : record.toolchain context.platform = .ok (record.compilerEntries c cxx) := by
    rw [here, toolchain, if_pos permitted, family]
    rfl
  have configured := configureLine_of_toolchain selected
  rw [definition_destination] at configured
  have key : Plain "-DCMAKE_INSTALL_PREFIX=" := by decide
  have unquotedBefore : ∀ part ∈ record.beforeDestination, Unquoted part :=
    madeOf_before fun _ plain => .inl plain
  have unquotedBehind :
      ∀ part ∈ record.behindDestination (record.compilerEntries c cxx), Unquoted part :=
    madeOf_behind (fun _ plain => .inl plain) values modules seed plainC plainCxx
  have splits := cmake.splits_quoted unquotedBefore key destination unquotedBehind
  have before : record.beforeDestination.flatMap blankWords = record.beforeDestination :=
    (Shell.flatMap_blankWords_eq_self_iff ne_empty_of_mem_before).mpr fun part member =>
      blank_not_mem (madeOf_before (fun _ plain => plain) part member)
  rw [before, ← definition_destination] at splits
  refine ⟨_, c, cxx, configured, family, splits, ?_⟩
  constructor
  · intro whole value bare blank
    have same := List.append_cancel_left (List.cons.inj (splits.unique whole)).2
    have behind := (List.cons.inj same).2
    obtain ⟨part, member, inside⟩ := exists_blank_behind bare blank
    exact (Shell.flatMap_blankWords_eq_self_iff ne_empty_of_mem_behind).mp behind part member inside
  · intro none
    have plain : ∀ value ∈ record.bareValues, Plain value := fun value bare d member =>
      (values value bare d member).resolve_right fun blank => none value bare (blank ▸ member)
    have parts := madeOf_behind (fun _ plain => plain) plain modules seed plainC plainCxx
    have behind := (Shell.flatMap_blankWords_eq_self_iff ne_empty_of_mem_behind).mpr
      fun part member => blank_not_mem (parts part member)
    rw [behind] at splits
    exact splits

/-- Options with a blank in each of their paths. -/
def spacedPaths : BuildOptions where
  target := "pyAgrum"
  modules := "BASE"
  destination := "/opt/my agrum"
  pythonLibrary := some "/opt/my python"
  compilerDir := some "/opt/my tools/"

/-- Quotes keep the blank of the destination, and nothing keeps those of the other values. -/
theorem configureLine_splits_blanks :
    ∃ record line, ofOptions spacedPaths .unix = .ok record ∧
      record.configureLine {} = .ok line ∧
      Shell.Splits line ["cmake", "../..", "-DCMAKE_EXPORT_COMPILE_COMMANDS=ON",
        "-DCMAKE_BUILD_TYPE=RELEASE", "-DUSE_NANODBC=OFF", "-DCMAKE_INSTALL_PREFIX=/opt/my agrum",
        "-DCMAKE_VERBOSE_MAKEFILE=OFF", "-DBUILD_SHARED_LIBS=ON", "-DGUM_COVERAGE=OFF",
        "-DBUILD_ALL=OFF", "-DBUILD_BASE=ON", "-DGUM_RANDOMSEED=0", "-DBUILD_PYTHON=ON",
        "-DPYTHON_LIBRARY=/opt/my", "python", "-DCMAKE_C_COMPILER=/opt/my", "tools/gcc",
        "-DCMAKE_CXX_COMPILER=/opt/my", "tools/g++", "-DCMAKE_GUM_THREADS=omp"] ∧
      ¬Shell.Splits line ("cmake" :: record.arguments "gcc" "g++") := by
  obtain ⟨record, validated⟩ : ∃ record, ofOptions spacedPaths .unix = .ok record := ⟨_, rfl⟩
  have here : ({} : Context).platform = .unix := rfl
  have word : Shell.IsOneWord "cmake" "cmake" := Shell.isOneWord_plain (by decide) (by decide)
  obtain ⟨line, c, cxx, configured, family, splits, whole⟩ :=
    configureLine_splits validated here word (by cases validated; decide)
      (by cases validated; decide) (by cases validated; decide)
  cases validated
  cases family
  refine ⟨_, line, rfl, configured, splits, fun intended => ?_⟩
  exact absurd (whole.mp intended) (by decide)

end Line
end BuildRecord
end BuildWarden
