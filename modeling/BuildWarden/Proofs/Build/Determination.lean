import BuildWarden.Proofs.Build.HandOver
/-!
# What the configure line determines

Where no blank is in the texts that the options name, the words of the configure line are its
fragments again, apart from the arguments that name a generator. The fragments are told apart by
their keys, so that the line determines the configuration it was written for.
-/

namespace BuildWarden.Compiler

/-! ### What compilers select -/

variable {compiler : Compiler} {c cxx arguments : String}

private theorem selection_injective : Function.Injective selection := by
  have apart : ∀ compiler ∈ families, ∀ compiler' ∈ families,
      compiler.selection = compiler'.selection → compiler = compiler' := by
    simp [families, selection, Studio.generator]
  exact fun compiler compiler' => apart _ compiler.mem_families _ compiler'.mem_families

private theorem platform_of_executables (selected : compiler.selection = .executables c cxx) :
    compiler.platform = .unix := by
  cases compiler with
  | gcc | clang => rfl
  | studio | mingw => cases selected

private theorem exists_generator (here : compiler.platform = .windows) :
    ∃ arguments, compiler.selection = .generator arguments := by
  cases compiler with
  | gcc | clang => cases here
  | studio | mingw => exact ⟨_, rfl⟩

private theorem sign_not_mem_generator (selected : compiler.selection = .generator arguments) :
    '=' ∉ arguments.toList := by
  cases compiler with
  | gcc | clang => cases selected
  | mingw =>
      cases selected
      decide
  | studio release width =>
      cases selected
      cases release <;> cases width <;> decide

end BuildWarden.Compiler

namespace BuildWarden.BuildRecord

/-- No blank is in the texts that the options name. -/
structure Blankless (record : BuildRecord) : Prop where
  destination : ' ' ∉ record.destination.toList
  modules : ∀ name ∈ record.modules.names, ' ' ∉ name.toList
  compilerDir : ∀ dir ∈ record.compilerDir, ' ' ∉ dir.toList
  pythonLibrary : ∀ path ∈ record.pythonLibrary, ' ' ∉ path.toList
  pythonInclude : ∀ path ∈ record.pythonInclude, ' ' ∉ path.toList

/-- Two records ask for the same configuration on a platform. -/
structure ConfiguredLike (one other : BuildRecord) (platform : Platform) : Prop where
  mode : one.mode = other.mode
  withSql : one.withSql = other.withSql
  destination : one.destination = other.destination
  verbose : one.verbose = other.verbose
  staticLib : one.staticLib = other.staticLib
  coverage : one.coverage = other.coverage
  modules : one.modules = other.modules
  seed : one.seed.getD "0" = other.seed.getD "0"
  target : one.target = other.target
  threads : one.threads = other.threads
  profiling : one.profiling = other.profiling
  compiler : one.compiler = other.compiler
  /-- Only the binding is built for a Python installation. -/
  python : one.target = .binding →
    one.pythonLibrary = other.pythonLibrary ∧ one.pythonInclude = other.pythonInclude
  /-- On Windows the generator finds the compilers. -/
  compilerDir : platform = .unix →
    one.compilerDir.map dropSlashes = other.compilerDir.map dropSlashes

/-! ### Entries and their keys -/

section Entries
variable {key other value value' : String} {word : List Char}

private theorem definition_inj : definition key value = definition key value' ↔ value = value' := by
  simp only [definition, String.append_right_inj]

private theorem onOff_inj {flag flag' : Bool} : onOff flag = onOff flag' ↔ flag = flag' := by
  cases flag <;> cases flag' <;> decide

private theorem buildType_inj {mode mode' : Mode} :
    buildType mode = buildType mode' ↔ mode = mode' := by
  cases mode <;> cases mode' <;> decide

private theorem threads_name_inj {threads threads' : Threads} :
    threads.name = threads'.name ↔ threads = threads' := by
  cases threads <;> cases threads' <;> decide

/-- The word is an entry with the key. -/
def Keyed (key : String) (word : List Char) : Prop :=
  ('-' :: 'D' :: key.toList) ++ ['='] <+: word

private theorem keyed_definition (key value : String) : Keyed key
    (definition key value).toList := by
  rw [Keyed, toList_definition]
  exact ⟨value.toList, by simp⟩

private theorem Keyed.sign_mem (keyed : Keyed key word) : '=' ∈ word :=
  keyed.subset (by simp)

/-- The key of an entry stands in front of its first equals sign. -/
theorem not_keyed_definition (plain : '=' ∉ key.toList) (plain' : '=' ∉ other.toList)
    (different : key ≠ other) : ¬Keyed key (definition other value).toList := by
  rintro ⟨rest, whole⟩
  rw [toList_definition, List.append_assoc, List.singleton_append] at whole
  have cut : Text.cutAt? '=' ('-' :: 'D' :: key.toList ++ '=' :: rest) =
      some ('-' :: 'D' :: key.toList, rest) := Text.cutAt?_append (by simp [plain]) rest
  rw [whole, Text.cutAt?_append (by simp [plain'])] at cut
  simp [String.toList_inj, different.symm] at cut

/-- An entry for a value that may be absent is told apart from what is behind it. -/
theorem optional_inj {value value' : Option String} {rest rest' : List (List Char)}
    (ends : ∀ word ∈ rest.head?, ¬Keyed key word) (ends' : ∀ word ∈ rest'.head?, ¬Keyed key word)
    (same : (value.map (definition key)).toList.map String.toList ++ rest =
      (value'.map (definition key)).toList.map String.toList ++ rest') :
    value = value' ∧ rest = rest' := by
  have keyed (value : Option String) :
      ∀ word ∈ (value.map (definition key)).toList.map String.toList, Keyed key word := by
    cases value with
    | none => exact List.forall_mem_nil _
    | some text => exact List.forall_mem_singleton.mpr (keyed_definition key text)
  obtain ⟨front, behind⟩ :=
    Text.append_inj_of_marked (keyed value) (keyed value') ends ends' same
  refine ⟨?_, behind⟩
  cases value <;> cases value' <;> simp [String.toList_inj, definition_inj] at front ⊢
  exact front

end Entries

/-! ### Words -/

section Words
variable {fragments : List String}

/-- The words of fragments. -/
def wordsOf (fragments : List String) : List (List Char) :=
  fragments.flatMap fun fragment => List.splitOn ' ' fragment.toList

private theorem wordsOf_append (front back : List String) :
    wordsOf (front ++ back) = wordsOf front ++ wordsOf back :=
  List.flatMap_append

/-- Fragments without a blank are words. -/
theorem wordsOf_blankless (blankless : ∀ fragment ∈ fragments, MadeOf (· ≠ ' ') fragment) :
    wordsOf fragments = fragments.map String.toList := by
  rw [wordsOf, List.map_eq_flatMap]
  exact List.flatMap_congr fun fragment member =>
    List.splitOn_eq_singleton fun blank => blankless fragment member ' ' blank rfl

private theorem pieces_joined (some : fragments ≠ []) :
    List.splitOn ' ' (Text.joined " " fragments).toList = wordsOf fragments := by
  have blank : " ".toList = [' '] := by decide
  rw [Text.joined, String.toList_intercalate, blank,
    Text.splitOn_intercalate_eq (by simpa using some), List.flatMap_map]
  rfl

end Words

/-! ### The selection of the compiler -/

section Selection
variable {one other record : BuildRecord} {platform : Platform}

/-- The fragments that select the compiler of a record. -/
def selectionEntries (record : BuildRecord) : List String :=
  match record.compiler.selection with
  | .generator arguments => [arguments]
  | .executables c cxx => record.compilerEntries c cxx

private theorem toolchain_eq_selectionEntries
    (permitted : record.compiler.permittedOn platform = true) :
    record.toolchain platform = .ok record.selectionEntries := by
  rw [toolchain, if_pos permitted, selectionEntries]
  cases record.compiler.selection <;> rfl

private theorem madeOf_not_mem {text : String} (none : ' ' ∉ text.toList) : MadeOf (· ≠ ' ') text :=
  fun _ member blank => none (blank ▸ member)

private theorem ne_blank_of_isPlain : ∀ c, Shell.isPlain c = true → c ≠ ' ' := by
  rintro c plain rfl
  exact absurd plain (by decide)

/-- The selected executables are handed over in one word each. -/
theorem wordsOf_executables {c cxx : String} (blankless : record.Blankless)
    (selected : record.compiler.selection = .executables c cxx) :
    wordsOf record.selectionEntries = (record.compilerEntries c cxx).map String.toList := by
  obtain ⟨⟨plainC, -⟩, plainCxx, -⟩ := Compiler.name_of_executables selected
  have entries : record.selectionEntries = record.compilerEntries c cxx := by
    rw [selectionEntries, selected]
  rw [entries]
  exact wordsOf_blankless (madeOf_compilerEntries ne_blank_of_isPlain
    (fun dir given => madeOf_not_mem (blankless.compilerDir dir given)) plainC plainCxx)

/-- The words that select the compiler are no entries of another key. -/
theorem not_keyed_selection {key : String} (plain : '=' ∉ key.toList)
    (other : key ≠ "CMAKE_C_COMPILER" ∧ key ≠ "CMAKE_CXX_COMPILER")
    (blankless : record.Blankless) :
    ∀ word ∈ wordsOf record.selectionEntries, ¬Keyed key word := by
  intro word member
  cases selected : record.compiler.selection with
  | generator arguments =>
      have entries : record.selectionEntries = [arguments] := by rw [selectionEntries, selected]
      rw [entries, wordsOf, List.flatMap_singleton] at member
      exact fun keyed =>
        Compiler.sign_not_mem_generator selected (Text.mem_of_mem_splitOn member keyed.sign_mem)
  | executables c cxx =>
      rw [wordsOf_executables blankless selected, compilerEntries] at member
      simp only [List.map_cons, List.map_nil, List.mem_cons, List.not_mem_nil, or_false] at member
      rcases member with rfl | rfl
      · exact not_keyed_definition plain (by decide) other.1
      · exact not_keyed_definition plain (by decide) other.2

private theorem compilerPath_eq (executable : String) :
    record.compilerPath executable =
      match record.compilerDir.map dropSlashes with
      | some dir => dir ++ "/" ++ executable
      | none => executable := by
  unfold compilerPath
  cases record.compilerDir <;> rfl

/-- The name of an executable is behind the last slash of its path. -/
theorem pieces_compilerPath {executable : String} (name : '/' ∉ executable.toList) :
    List.splitOn '/' (record.compilerPath executable).toList =
      (match record.compilerDir.map dropSlashes with
        | some dir => List.splitOn '/' dir.toList
        | none => []) ++ [executable.toList] := by
  have slash : "/".toList = ['/'] := by decide
  rw [compilerPath_eq]
  cases record.compilerDir.map dropSlashes with
  | none => exact List.splitOn_eq_singleton name
  | some dir =>
      simp only [String.toList_append, slash, List.append_assoc, List.singleton_append,
        List.splitOn_append_cons_self, List.splitOn_eq_singleton name]

private theorem compilerPath_inj {executable executable' : String} (name : '/' ∉ executable.toList)
    (name' : '/' ∉ executable'.toList)
    (same : one.compilerPath executable = other.compilerPath executable') :
    executable = executable' ∧
      one.compilerDir.map dropSlashes = other.compilerDir.map dropSlashes := by
  have pieces := congrArg (fun path => List.splitOn '/' path.toList) same
  simp only [pieces_compilerPath name, pieces_compilerPath name'] at pieces
  obtain ⟨front, back⟩ := List.append_inj' pieces rfl
  refine ⟨by simpa [String.toList_inj] using back, ?_⟩
  cases given : one.compilerDir.map dropSlashes <;>
    cases given' : other.compilerDir.map dropSlashes <;> simp only [given, given'] at front
  case none.none => rfl
  case none.some dir => exact absurd front.symm (List.splitOn_ne_nil _ _)
  case some.none dir => exact absurd front (List.splitOn_ne_nil _ _)
  case some.some dir dir' => rw [String.toList_inj.mp (Text.splitOn_injective front)]

/-- **The words that select a compiler** tell which one, and on Unix also where it is. -/
theorem selection_inj (blankless : one.Blankless) (blankless' : other.Blankless)
    (permitted : one.compiler.permittedOn platform = true)
    (permitted' : other.compiler.permittedOn platform = true)
    (same : wordsOf one.selectionEntries = wordsOf other.selectionEntries) :
    one.compiler = other.compiler ∧
      (platform = .unix →
        one.compilerDir.map dropSlashes = other.compilerDir.map dropSlashes) := by
  have here := Compiler.platform_of_permittedOn permitted
  have here' := Compiler.platform_of_permittedOn permitted'
  cases platform with
  | unix =>
      obtain ⟨c, cxx, selected⟩ := Compiler.exists_executables here
      obtain ⟨c', cxx', selected'⟩ := Compiler.exists_executables here'
      obtain ⟨⟨-, nameC⟩, -, nameCxx⟩ := Compiler.name_of_executables selected
      obtain ⟨⟨-, nameC'⟩, -, nameCxx'⟩ := Compiler.name_of_executables selected'
      rw [wordsOf_executables blankless selected, wordsOf_executables blankless' selected'] at same
      simp only [compilerEntries, List.map_cons, List.map_nil, List.cons.injEq, and_true,
        String.toList_inj, definition_inj] at same
      obtain ⟨rfl, dir⟩ := compilerPath_inj nameC nameC' same.1
      obtain ⟨rfl, -⟩ := compilerPath_inj nameCxx nameCxx' same.2
      exact ⟨Compiler.selection_injective (selected.trans selected'.symm), fun _ => dir⟩
  | windows =>
      obtain ⟨arguments, selected⟩ := Compiler.exists_generator here
      obtain ⟨arguments', selected'⟩ := Compiler.exists_generator here'
      simp only [selectionEntries, selected, selected', wordsOf, List.flatMap_singleton] at same
      have same := String.toList_inj.mp (Text.splitOn_injective same)
      subst same
      refine ⟨Compiler.selection_injective (selected.trans selected'.symm), fun here => ?_⟩
      cases here

end Selection

/-! ### The line -/

/-- The fragments between the destination and the selection of the compiler. -/
def optionEntries (record : BuildRecord) : List String :=
  [definition "CMAKE_VERBOSE_MAKEFILE" (onOff record.verbose),
    definition "BUILD_SHARED_LIBS" (onOff !record.staticLib),
    definition "GUM_COVERAGE" (onOff record.coverage),
    definition "BUILD_ALL" "OFF"]
  ++ record.modules.names.map (fun name => definition ("BUILD_" ++ name) "ON")
  ++ [definition "GUM_RANDOMSEED" (record.seed.getD "0"),
    definition "BUILD_PYTHON" (onOff (record.target = .binding))]
  ++ record.pythonEntries

/-- The fragment for the destination. -/
def destinationEntry (record : BuildRecord) : String :=
  definition "CMAKE_INSTALL_PREFIX" ("\"" ++ record.destination ++ "\"")

section Decoding
variable {one other : BuildRecord} {rest rest' : List (List Char)}

private theorem before_inj
    (same : one.beforeDestination.map String.toList ++ rest =
      other.beforeDestination.map String.toList ++ rest') :
    one.mode = other.mode ∧ one.withSql = other.withSql ∧ rest = rest' := by
  simpa only [beforeDestination, List.map_cons, List.map_nil, List.cons_append, List.nil_append,
    List.cons.injEq, String.toList_inj, definition_inj, buildType_inj, onOff_inj, true_and]
    using same

private theorem destination_inj
    (same : one.destinationEntry.toList :: rest = other.destinationEntry.toList :: rest') :
    one.destination = other.destination ∧ rest = rest' := by
  simpa only [destinationEntry, List.cons.injEq, String.toList_inj, definition_inj,
    String.append_left_inj, String.append_right_inj] using same

/-- The entry of a module. -/
def moduleEntry (name : String) : String :=
  definition ("BUILD_" ++ name) "ON"

private theorem moduleEntry_injective : Function.Injective moduleEntry := by
  intro name name' same
  simpa only [moduleEntry, definition, String.append_left_inj, String.append_right_inj] using same

private theorem prefix_moduleEntry (name : String) : "-DBUILD_".toList <+:
    (moduleEntry name).toList :=
  ⟨name.toList ++ "=ON".toList, by simp [moduleEntry, definition, String.toList_append]⟩

/-- The entries of the modules end where that of the seed is. -/
theorem modules_inj {seed seed' : String}
    (same : (one.modules.names.map moduleEntry).map String.toList
        ++ (definition "GUM_RANDOMSEED" seed).toList :: rest =
      (other.modules.names.map moduleEntry).map String.toList
        ++ (definition "GUM_RANDOMSEED" seed').toList :: rest') :
    one.modules = other.modules ∧ seed = seed' ∧ rest = rest' := by
  have marked (names : List String) :
      ∀ word ∈ (names.map moduleEntry).map String.toList, "-DBUILD_".toList <+: word :=
    List.forall_mem_map.mpr (List.forall_mem_map.mpr fun name _ => prefix_moduleEntry name)
  have ends (seed : String) (rest : List (List Char)) :
      ∀ word ∈ ((definition "GUM_RANDOMSEED" seed).toList :: rest).head?,
        ¬"-DBUILD_".toList <+: word := by
    rintro word ⟨⟩
    simp [toList_definition]
  obtain ⟨names, behind⟩ :=
    Text.append_inj_of_marked (marked _) (marked _) (ends _ _) (ends _ _) same
  have letters : Function.Injective String.toList := fun _ _ => String.toList_inj.mp
  have names := moduleEntry_injective.list_map (letters.list_map names)
  simp only [List.cons.injEq, String.toList_inj, definition_inj] at behind
  exact ⟨congrArg ModuleSet.mk names, behind⟩

/-- The entries of the Python installation end where the words start that select the compiler. -/
theorem python_inj (same : one.target = other.target)
    (ends : ∀ key ∈ pythonKeys, ∀ word ∈ rest, ¬Keyed key word)
    (ends' : ∀ key ∈ pythonKeys, ∀ word ∈ rest', ¬Keyed key word)
    (words : one.pythonEntries.map String.toList ++ rest =
      other.pythonEntries.map String.toList ++ rest') :
    (one.target = .binding →
      one.pythonLibrary = other.pythonLibrary ∧ one.pythonInclude = other.pythonInclude) ∧
      rest = rest' := by
  unfold pythonEntries at words
  rw [← same] at words
  cases target : one.target with
  | library =>
      rw [target] at words
      exact ⟨nofun, words⟩
  | binding =>
      rw [target] at words
      simp only [List.map_append, List.append_assoc] at words
      have further {directory : Option String} {rest : List (List Char)}
          (ends : ∀ word ∈ rest, ¬Keyed "PYTHON_LIBRARY" word) :
          ∀ word ∈ ((directory.map (definition "PYTHON_INCLUDE_DIR")).toList.map String.toList
            ++ rest).head?, ¬Keyed "PYTHON_LIBRARY" word := by
        intro word first
        rcases List.mem_append.mp (List.mem_of_head? first) with entry | behind
        · cases directory with
          | none => cases entry
          | some path =>
              obtain rfl := List.mem_singleton.mp entry
              exact not_keyed_definition (by decide) (by decide) (by decide)
        · exact ends word behind
      obtain ⟨library, words⟩ := optional_inj (further (ends _ (by decide)))
        (further (ends' _ (by decide))) words
      obtain ⟨directory, words⟩ := optional_inj
        (fun word first => ends _ (by decide) word (List.mem_of_head? first))
        (fun word first => ends' _ (by decide) word (List.mem_of_head? first)) words
      exact ⟨fun _ => ⟨library, directory⟩, words⟩

private theorem tail_inj
    (same : one.configureTail.map String.toList = other.configureTail.map String.toList) :
    one.threads = other.threads ∧ one.profiling = other.profiling := by
  simp only [configureTail, List.map_cons, List.cons.injEq, String.toList_inj, definition_inj,
    threads_name_inj] at same
  refine ⟨same.1, ?_⟩
  have behind := congrArg List.length same.2
  cases profiled : one.profiling <;> cases profiled' : other.profiling <;>
    simp [profiled, profiled'] at behind ⊢

end Decoding

section Line
variable {one other record : BuildRecord} {options options' : BuildOptions} {context : Context}
  {platform : Platform}

/-- The fragments behind the tool. -/
def lineEntries (record : BuildRecord) : List String :=
  record.beforeDestination ++ record.destinationEntry ::
    (record.optionEntries ++ record.selectionEntries ++ record.configureTail)

/-- Their words, where only the selection of the compiler may have a blank. -/
def entryWords (record : BuildRecord) : List (List Char) :=
  record.beforeDestination.map String.toList ++
    record.destinationEntry.toList :: (record.optionEntries.map String.toList ++
      (wordsOf record.selectionEntries ++ record.configureTail.map String.toList))

/-- The entry for the threads is the first one behind the selection of the compiler. -/
theorem selection_tail_inj (blankless : one.Blankless) (blankless' : other.Blankless)
    (same : wordsOf one.selectionEntries ++ one.configureTail.map String.toList =
      wordsOf other.selectionEntries ++ other.configureTail.map String.toList) :
    wordsOf one.selectionEntries = wordsOf other.selectionEntries ∧
      one.threads = other.threads ∧ one.profiling = other.profiling := by
  have marked {record : BuildRecord} (blankless : record.Blankless) :
      ∀ word ∈ wordsOf record.selectionEntries, ¬Keyed "CMAKE_GUM_THREADS" word :=
    not_keyed_selection (by decide) (by decide) blankless
  have ends (record : BuildRecord) : ∀ word ∈ (record.configureTail.map String.toList).head?,
      ¬¬Keyed "CMAKE_GUM_THREADS" word := by
    rintro word ⟨⟩
    exact not_not.mpr (keyed_definition _ _)
  obtain ⟨selection, tail⟩ := Text.append_inj_of_marked (marked blankless) (marked blankless')
    (ends one) (ends other) same
  exact ⟨selection, tail_inj tail⟩

/-- No word behind the Python installation is an entry for it. -/
theorem not_keyed_behind_python (blankless : record.Blankless) :
    ∀ key ∈ pythonKeys,
      ∀ word ∈ wordsOf record.selectionEntries ++ record.configureTail.map String.toList,
        ¬Keyed key word := by
  intro key python word member
  have plain : ∀ key ∈ pythonKeys, '=' ∉ key.toList ∧ (key ≠ "CMAKE_C_COMPILER" ∧
      key ≠ "CMAKE_CXX_COMPILER") ∧ ∀ other ∈ fixedKeys, '=' ∉ other.toList ∧ key ≠ other := by
    decide
  obtain ⟨sign, compilers, fixed⟩ := plain key python
  rcases List.mem_append.mp member with selection | tail
  · exact not_keyed_selection sign compilers blankless word selection
  · obtain ⟨part, entry, rfl⟩ := List.mem_map.mp tail
    have others : ∀ part ∈ record.configureTail, ¬Keyed key part.toList :=
      forall_mem_tail fun other known _ _ =>
        not_keyed_definition sign (fixed other known).1 (fixed other known).2
    exact others part entry

/-- **The words of the line** tell the configuration that they were made of. -/
theorem entryWords_inj (blankless : one.Blankless) (blankless' : other.Blankless)
    (permitted : one.compiler.permittedOn platform = true)
    (permitted' : other.compiler.permittedOn platform = true)
    (same : one.entryWords = other.entryWords) : one.ConfiguredLike other platform := by
  have module : (fun name => definition ("BUILD_" ++ name) "ON") = moduleEntry := rfl
  obtain ⟨mode, withSql, same⟩ := before_inj same
  obtain ⟨destination, same⟩ := destination_inj same
  simp only [optionEntries, module, List.map_append, List.map_cons, List.append_assoc,
    List.cons_append, List.nil_append, List.cons.injEq, String.toList_inj, definition_inj,
    onOff_inj, true_and] at same
  obtain ⟨verbose, shared, coverage, same⟩ := same
  obtain ⟨modules, seed, same⟩ := modules_inj same
  simp only [List.cons.injEq, String.toList_inj, definition_inj, onOff_inj] at same
  obtain ⟨switch, same⟩ := same
  have target : one.target = other.target := by
    cases target : one.target <;> cases target' : other.target <;> simp [target, target'] at switch
    all_goals rfl
  obtain ⟨python, same⟩ := python_inj target (not_keyed_behind_python blankless)
    (not_keyed_behind_python blankless') same
  obtain ⟨selection, threads, profiling⟩ := selection_tail_inj blankless blankless' same
  obtain ⟨compiler, dir⟩ := selection_inj blankless blankless' permitted permitted' selection
  exact ⟨mode, withSql, destination, verbose, by simpa using shared, coverage, modules, seed,
    target, threads, profiling, compiler, python, dir⟩

private theorem ConfiguredLike.pythonEntries (alike : one.ConfiguredLike other platform) :
    one.pythonEntries = other.pythonEntries := by
  unfold BuildRecord.pythonEntries
  cases target : one.target with
  | library => rw [← alike.target, target]
  | binding =>
      obtain ⟨library, directory⟩ := alike.python target
      rw [← alike.target, target, library, directory]

private theorem ConfiguredLike.selectionEntries (alike : one.ConfiguredLike other platform)
    (permitted : one.compiler.permittedOn platform = true) :
    one.selectionEntries = other.selectionEntries := by
  unfold BuildRecord.selectionEntries
  rw [← alike.compiler]
  cases selected : one.compiler.selection with
  | generator arguments => rfl
  | executables c cxx =>
      have here : platform = .unix := (Compiler.platform_of_permittedOn permitted).symm.trans
        (Compiler.platform_of_executables selected)
      have path (executable : String) :
          one.compilerPath executable = other.compilerPath executable := by
        rw [compilerPath_eq, compilerPath_eq, alike.compilerDir here]
      simp only [compilerEntries, path]

/-- Records that ask for the same configuration are written alike. -/
theorem ConfiguredLike.lineEntries (alike : one.ConfiguredLike other platform)
    (permitted : one.compiler.permittedOn platform = true) :
    one.lineEntries = other.lineEntries := by
  simp only [BuildRecord.lineEntries, beforeDestination, destinationEntry, optionEntries,
    configureTail, alike.mode, alike.withSql, alike.destination, alike.verbose, alike.staticLib,
    alike.coverage, alike.modules, alike.seed, alike.target, alike.pythonEntries,
    alike.selectionEntries permitted, alike.threads, alike.profiling]

private theorem Blankless.python (blankless : record.Blankless) :
    ∀ value ∈ record.pythonValues, MadeOf (· ≠ ' ') value := by
  intro value given
  unfold pythonValues at given
  split at given
  · cases given
  rcases List.mem_append.mp given with library | directory
  · exact madeOf_not_mem (blankless.pythonLibrary value (Option.mem_toList.mp library))
  · exact madeOf_not_mem (blankless.pythonInclude value (Option.mem_toList.mp directory))

private theorem Blankless.destinationEntry (blankless : record.Blankless) :
    MadeOf (· ≠ ' ') record.destinationEntry := by
  have quote : MadeOf (· ≠ ' ') "\"" := madeOf_not_mem (by decide)
  exact madeOf_definition ne_blank_of_isPlain (madeOf_not_mem (by decide))
    (madeOf_append (madeOf_append quote (madeOf_not_mem blankless.destination)) quote)

/-- A seed that was accepted has no blank either. -/
theorem wordsOf_lineEntries (blankless : record.Blankless)
    (validated : ofOptions options platform = .ok record) :
    wordsOf record.lineEntries = record.entryWords := by
  have seed : MadeOf (· ≠ ' ') (record.seed.getD "0") :=
    madeOf_not_mem fun blank => absurd (digits_of_seed validated ' ' blank) (by decide)
  have front : ∀ part ∈ record.beforeDestination ++ [record.destinationEntry],
      MadeOf (· ≠ ' ') part :=
    List.forall_mem_append.mpr ⟨madeOf_before ne_blank_of_isPlain,
      List.forall_mem_singleton.mpr blankless.destinationEntry⟩
  have named := madeOf_named ne_blank_of_isPlain
    (fun name listed => madeOf_not_mem (blankless.modules name listed)) seed blankless.python
    (List.forall_mem_nil _)
  rw [behindDestination, List.append_nil] at named
  obtain ⟨options, tail⟩ := List.forall_mem_append.mp named
  have options : ∀ part ∈ record.optionEntries, MadeOf (· ≠ ' ') part := options
  have split : record.lineEntries = record.beforeDestination ++ [record.destinationEntry] ++
      record.optionEntries ++ record.selectionEntries ++ record.configureTail := by
    simp [lineEntries]
  rw [split, wordsOf_append, wordsOf_append, wordsOf_append, wordsOf_blankless front,
    wordsOf_blankless options, wordsOf_blankless tail]
  simp [entryWords]

/-- **The configure line determines the configuration.** Records without a blank in the texts that
they name are written in the same line if and only if they ask for the same configuration. -/
theorem configureLine_eq_iff (validated : ofOptions options platform = .ok one)
    (validated' : ofOptions options' platform = .ok other) (here : context.platform = platform)
    (blankless : one.Blankless) (blankless' : other.Blankless) :
    ∃ line line', one.configureLine context = .ok line ∧
      other.configureLine context = .ok line' ∧
      (line = line' ↔ one.ConfiguredLike other platform) := by
  subst here
  have permitted := BuildOptions.permittedOn_of_compilerFor (ofOptions_eq_ok.mp validated).compiler
  have permitted' :=
    BuildOptions.permittedOn_of_compilerFor (ofOptions_eq_ok.mp validated').compiler
  have configured := configureLine_of_toolchain (toolchain_eq_selectionEntries permitted)
  have configured' := configureLine_of_toolchain (toolchain_eq_selectionEntries permitted')
  refine ⟨Text.joined " " (context.tools.cmake :: one.lineEntries),
    Text.joined " " (context.tools.cmake :: other.lineEntries), configured, configured', ?_⟩
  constructor
  · intro same
    have words := congrArg (List.splitOn ' ' ∘ String.toList) same
    simp only [Function.comp_apply, pieces_joined (List.cons_ne_nil _ _)] at words
    -- the tool may be written in several words, which are the same on both sides
    have words : wordsOf one.lineEntries = wordsOf other.lineEntries :=
      List.append_cancel_left words
    rw [wordsOf_lineEntries blankless validated, wordsOf_lineEntries blankless' validated'] at words
    exact entryWords_inj blankless blankless' permitted permitted' words
  · intro alike
    rw [alike.lineEntries permitted]

/-- Options for a binding, with a fixed seed. -/
def seededBinding : BuildOptions where
  target := "pyAgrum"
  modules := "BASE"
  compilerDir := some "/opt/gcc"
  pythonLibrary := some "/opt/python"
  seed := "0"
  fixedSeed := true

/-- The same configuration in other words: no seed is asked for, and there are slashes at the end of
the directory. -/
def respelledBinding : BuildOptions where
  target := " PYAGRUM"
  modules := "base+BASE"
  compilerDir := some "/opt/gcc/\\"
  pythonLibrary := some "/opt/python "

/-- Two records that differ are written in the same line, and so ask for the same configuration. -/
theorem configureLine_eq_iff_respelled :
    ∃ one other line, ofOptions seededBinding .unix = .ok one ∧
      ofOptions respelledBinding .unix = .ok other ∧ one ≠ other ∧
      one.configureLine {} = .ok line ∧ other.configureLine {} = .ok line ∧
      one.ConfiguredLike other .unix := by
  obtain ⟨one, validated⟩ : ∃ one, ofOptions seededBinding .unix = .ok one := ⟨_, rfl⟩
  obtain ⟨other, validated'⟩ : ∃ other, ofOptions respelledBinding .unix = .ok other := ⟨_, rfl⟩
  have blankless : one.Blankless := by
    cases validated
    exact ⟨by decide, by decide +kernel, by decide, by decide, by decide⟩
  have blankless' : other.Blankless := by
    cases validated'
    exact ⟨by decide, by decide +kernel, by decide, by decide, by decide⟩
  have here : ({} : Context).platform = .unix := rfl
  obtain ⟨line, line', configured, configured', determines⟩ :=
    configureLine_eq_iff validated validated' here blankless blankless'
  have same : one.configureLine {} = other.configureLine {} := by
    cases validated
    cases validated'
    decide +kernel
  obtain rfl : line = line' := Except.ok.inj (configured.symm.trans (same.trans configured'))
  have apart : one ≠ other := by
    cases validated
    cases validated'
    decide +kernel
  exact ⟨one, other, line, validated, validated', apart, configured, configured', determines.mp rfl⟩

end Line
end BuildWarden.BuildRecord
