import BuildWarden.Proofs.Build.ConfigureFragments
import BuildWarden.Proofs.Text.Parts
/-!
# When the configure line enables Python

The switch that enables Python is spelled like the switch of a module. A build of the binding has
it, and so has a build of the library that names a module after it. No other fragment of the line
spells the switch, whatever is built and for which compiler.
-/

namespace BuildWarden.BuildRecord

/-- The switch that enables Python. -/
def pythonSwitch : String := "-DBUILD_PYTHON=ON"

/-- A module whose own switch spells the one for Python: its name is Python's, or ends like the
switch without its value, or starts like Python switched on, or has the whole switch inside. -/
def EnablesPython (name : String) : Prop :=
  name = "PYTHON" ∨ "-DBUILD_PYTHON".toList <:+ name.toList ∨ "PYTHON=ON".toList <+: name.toList ∨
    pythonSwitch.toList <:+: name.toList

/-- A text without the switch for Python. -/
def Silent (text : String) : Prop :=
  ¬pythonSwitch.toList <:+: text.toList

instance (text : String) : Decidable (Silent text) :=
  inferInstanceAs (Decidable (¬_))

private theorem silent_iff {text : String} :
    Silent text ↔ Text.contains pythonSwitch text = false := by
  rw [Silent, ← Text.hasPart_iff, Bool.not_eq_true, Text.contains]

/-! ### Fragments -/

/-- A switch stands across the equals sign of an entry, or on one side of it. -/
theorem switch_infix_definition_iff (key value : String) :
    pythonSwitch.toList <:+: (definition key value).toList ↔
      pythonSwitch.toList <:+: '-' :: 'D' :: key.toList ∨
        ("-DBUILD_PYTHON".toList <:+ '-' :: 'D' :: key.toList ∧ "ON".toList <+: value.toList) ∨
        pythonSwitch.toList <:+: value.toList := by
  have split : pythonSwitch.toList = "-DBUILD_PYTHON".toList ++ '=' :: "ON".toList := by decide
  rw [toList_definition, split]
  exact Text.infix_across_iff (by decide) (by decide) _ _

/-- An entry with another key spells the switch only in its value. -/
theorem silent_definition {key value : String} (plain : '-' ∉ key.toList ∧ '=' ∉ key.toList)
    (other : key ≠ "BUILD_PYTHON") (silent : Silent value) : Silent (definition key value) := by
  rw [Silent, switch_infix_definition_iff]
  have front : ¬pythonSwitch.toList <:+: '-' :: 'D' :: key.toList := by
    intro inside
    have sign : '=' ∈ '-' :: 'D' :: key.toList := inside.subset (by decide)
    simp [plain.2] at sign
  have across : ¬"-DBUILD_PYTHON".toList <:+ '-' :: 'D' :: key.toList := by
    intro ends
    rcases List.suffix_cons_iff.mp ends with same | within
    · have tail : "BUILD_PYTHON".toList = key.toList := (List.cons.inj (List.cons.inj same).2).2
      exact other (String.toList_inj.mp tail).symm
    · have dash : '-' ∈ 'D' :: key.toList := within.subset (by decide)
      simp [plain.1] at dash
  simp only [front, across, false_and, false_or]
  exact silent

/-- The switch of a module spells the one for Python in four ways. -/
theorem switch_infix_module_iff (name : String) :
    pythonSwitch.toList <:+: (definition ("BUILD_" ++ name) "ON").toList ↔ EnablesPython name := by
  have bare : '-' ∉ "DBUILD_".toList := by decide
  have key : 'D' :: ("BUILD_" ++ name).toList = "DBUILD_".toList ++ name.toList := by
    simp [String.toList_append]
  have switch : pythonSwitch.toList = '-' :: ("DBUILD_".toList ++ "PYTHON=ON".toList) := by decide
  have stem : "-DBUILD_PYTHON".toList = '-' :: ("DBUILD_".toList ++ "PYTHON".toList) := by decide
  -- in front of the equals sign
  have front : pythonSwitch.toList <:+: '-' :: ("DBUILD_".toList ++ name.toList) ↔
      "PYTHON=ON".toList <+: name.toList ∨ pythonSwitch.toList <:+: name.toList := by
    rw [switch, List.infix_cons_iff, List.cons_prefix_cons, List.prefix_append_right_inj,
      Text.infix_append_of_not_mem bare]
    simp only [true_and]
  -- across it
  have across : "-DBUILD_PYTHON".toList <:+ '-' :: ("DBUILD_".toList ++ name.toList) ↔
      name = "PYTHON" ∨ "-DBUILD_PYTHON".toList <:+ name.toList := by
    rw [stem, List.suffix_cons_iff, List.cons.injEq, List.append_cancel_left_eq, String.toList_inj,
      Text.suffix_append_of_not_mem bare, eq_comm (a := name)]
    simp only [true_and]
  -- the value is too short
  have behind : ¬pythonSwitch.toList <:+: "ON".toList := by decide
  rw [switch_infix_definition_iff, key, front, across, EnablesPython]
  simp only [behind, List.prefix_refl, and_true, or_false]
  rw [or_comm, or_assoc]

/-! ### The fragments of the line -/

section Fragments
variable {record : BuildRecord} {platform : Platform} {toolchain : List String}

private theorem silent_fixed : ∀ key ∈ fixedKeys, ∀ value ∈ fixedValues, Silent
    (definition key value) := by
  have keys : ∀ key ∈ fixedKeys, ('-' ∉ key.toList ∧ '=' ∉ key.toList) ∧ key ≠ "BUILD_PYTHON" := by
    decide
  have values : ∀ value ∈ fixedValues, Silent value := by decide
  intro key known value fixed
  exact silent_definition (keys key known).1 (keys key known).2 (values value fixed)

private theorem silent_quoted {text : String} (silent : Silent text) : Silent
    ("\"" ++ text ++ "\"") := by
  have outside : '"' ∉ pythonSwitch.toList := by decide
  have some : pythonSwitch.toList ≠ [] := by decide
  have quoted : ("\"" ++ text ++ "\"").toList = [] ++ '"' :: (text.toList ++ '"' :: []) := by
    simp [String.toList_append]
  rw [Silent, quoted, Text.infix_append_cons_iff some outside,
    Text.infix_append_cons_iff some outside, List.infix_nil]
  simp only [some, false_or, or_false]
  exact silent

private theorem silent_of_not_mem {text : String} (bare : '-' ∉ text.toList) : Silent text :=
  fun inside => bare (inside.subset (by decide))

private theorem silent_dropSlashes {dir : String} (silent : Silent dir) : Silent
    (dropSlashes dir) := by
  intro inside
  refine silent (inside.trans (List.IsPrefix.isInfix ?_))
  rw [dropSlashes, String.toList_ofList]
  exact List.rdropWhile_prefix _ _

private theorem silent_compilerPath (dir : ∀ dir ∈ record.compilerDir, Silent dir)
    {executable : String}
    (silent : Silent executable) : Silent (record.compilerPath executable) := by
  have outside : '/' ∉ pythonSwitch.toList := by decide
  have some : pythonSwitch.toList ≠ [] := by decide
  unfold compilerPath
  split
  next found given =>
    have path : (dropSlashes found ++ "/" ++ executable).toList =
        (dropSlashes found).toList ++ '/' :: executable.toList := by
      simp [String.toList_append]
    rw [Silent, path, Text.infix_append_cons_iff some outside, not_or]
    exact ⟨silent_dropSlashes (dir found given), silent⟩
  next => exact silent

/-- The words by which a compiler is selected. -/
def selectionWords : Compiler.Selection → List String
  | .generator arguments => [arguments]
  | .executables c cxx => [c, cxx]

private theorem silent_selection (compiler : Compiler) :
    ∀ word ∈ selectionWords compiler.selection, Silent word := by
  have listed : ∀ compiler ∈ Compiler.families,
      ∀ word ∈ selectionWords compiler.selection, Silent word := by decide
  exact listed compiler compiler.mem_families

private theorem silent_of_mem_toolchain (dir : ∀ dir ∈ record.compilerDir, Silent dir)
    (selected : record.toolchain platform = .ok toolchain) :
    ∀ fragment ∈ toolchain, Silent fragment := by
  have words := silent_selection record.compiler
  unfold BuildRecord.toolchain at selected
  split at selected
  case isFalse => cases selected
  split at selected
  next arguments generator =>
    cases selected
    rw [generator] at words
    exact words
  next c cxx executables =>
    cases selected
    rw [executables] at words
    obtain ⟨silentC, others⟩ := List.forall_mem_cons.mp words
    have silentCxx := others cxx List.mem_cons_self
    have first : Silent (definition "CMAKE_C_COMPILER" (record.compilerPath c)) :=
      silent_definition (by decide) (by decide) (silent_compilerPath dir silentC)
    have second : Silent (definition "CMAKE_CXX_COMPILER" (record.compilerPath cxx)) :=
      silent_definition (by decide) (by decide) (silent_compilerPath dir silentCxx)
    exact List.forall_mem_cons.mpr ⟨first, List.forall_mem_singleton.mpr second⟩

/-- Behind the destination only modules have the switch. -/
theorem silent_or_module (library : record.target = .library)
    (seed : '-' ∉ (record.seed.getD "0").toList)
    (selection : ∀ fragment ∈ toolchain, Silent fragment) :
    ∀ fragment ∈ record.behindDestination toolchain, Silent fragment ∨
      ∃ name ∈ record.modules.names, fragment = definition ("BUILD_" ++ name) "ON" := by
  have switch : Silent (definition "BUILD_PYTHON" (onOff (record.target = .binding))) := by
    rw [library]
    decide
  have seeded : Silent (definition "GUM_RANDOMSEED" (record.seed.getD "0")) :=
    silent_definition (by decide) (by decide) (silent_of_not_mem seed)
  have python : record.pythonValues = [] := by rw [pythonValues, library]
  refine forall_mem_behind ?_ ?_ (.inl seeded) (.inl switch) ?_ ?_
  · exact fun key known value fixed => .inl (silent_fixed key known value fixed)
  · exact fun name listed => .inr ⟨name, listed, rfl⟩
  · rw [python]
    exact fun _ _ => List.forall_mem_nil _
  · exact fun fragment member => .inl (selection fragment member)

end Fragments

/-! ### The line -/

section Line
variable {options : BuildOptions} {platform : Platform} {record : BuildRecord} {context : Context}

/-- The switch has no blank inside, so it stands within one fragment of the line. -/
theorem switch_infix_joined_iff {fragments : List String} :
    Text.contains pythonSwitch (Text.joined " " fragments) = true ↔
      ∃ fragment ∈ fragments, ¬Silent fragment := by
  have outside : ' ' ∉ pythonSwitch.toList := by decide
  have some : pythonSwitch.toList ≠ [] := by decide
  have blank : " ".toList = [' '] := by decide
  rw [Text.contains, Text.hasPart_iff, Text.joined, String.toList_intercalate, blank,
    Text.infix_intercalate_iff some outside]
  simp only [List.mem_map, exists_exists_and_eq_and, Silent, not_not]

private theorem silent_trim {text : String} (silent : Silent text) : Silent (Text.trim text) := by
  obtain ⟨front, back, whole, -⟩ := Text.exists_blanks text.toList
  intro inside
  rw [Text.trim, String.toList_ofList] at inside
  exact silent (inside.trans ⟨front, back, whole.symm⟩)

/-- The names in a record are those that the tokens stand for. -/
theorem mem_names_iff (validated : ofOptions options platform = .ok record) {name : String} :
    name ∈ record.modules.names ↔
      ∃ token ∈ ModuleSet.tokens options.modules, ModuleSet.canonicalName token = name := by
  rw [← (ofOptions_eq_ok.mp validated).modules, ModuleSet.parse, ModuleSet.mem_ofNames,
    List.mem_map]

section Named
variable {toolchain : List String} (validated : ofOptions options platform = .ok record)
include validated

private theorem silent_compilerDir
    (dir : ∀ dir ∈ options.compilerDir, Text.contains pythonSwitch dir = false) :
    ∀ dir ∈ record.compilerDir, Silent dir := by
  intro found given
  rw [← (ofOptions_eq_ok.mp validated).compilerDir] at given
  obtain ⟨raw, named, left⟩ := Option.bind_eq_some_iff.mp given
  obtain ⟨rfl, -⟩ := Text.nonBlank?_eq_some.mp left
  exact silent_trim (silent_iff.mpr (dir raw named))

/-- A fragment of the line of a library build that has the switch is the one of a module. -/
theorem exists_module_of_not_silent (library : record.target = .library)
    (selected : record.toolchain context.platform = .ok toolchain)
    (cmake : Text.contains pythonSwitch context.tools.cmake = false)
    (destination : Text.contains pythonSwitch options.destination = false)
    (dir : ∀ dir ∈ options.compilerDir, Text.contains pythonSwitch dir = false)
    {fragment : String} (member : fragment ∈ context.tools.cmake :: (record.beforeDestination ++
      definition "CMAKE_INSTALL_PREFIX" ("\"" ++ record.destination ++ "\"") ::
        record.behindDestination toolchain)) (loud : ¬Silent fragment) :
    ∃ name ∈ record.modules.names, fragment = definition ("BUILD_" ++ name) "ON" := by
  have made := ofOptions_eq_ok.mp validated
  have seed : '-' ∉ (record.seed.getD "0").toList := fun dash =>
    absurd (digits_of_seed validated '-' dash) (by decide)
  have quoted : Silent ("\"" ++ record.destination ++ "\"") :=
    silent_quoted (made.destination ▸ silent_iff.mpr destination)
  have before : ∀ fragment ∈ record.beforeDestination, Silent fragment :=
    forall_mem_before silent_fixed (by decide)
  have selection := silent_of_mem_toolchain (silent_compilerDir validated dir) selected
  rcases List.mem_cons.mp member with rfl | member
  · exact (loud (silent_iff.mpr cmake)).elim
  rcases List.mem_append.mp member with member | member
  · exact (loud (before fragment member)).elim
  rcases List.mem_cons.mp member with rfl | member
  · exact (loud (silent_definition (by decide) (by decide) quoted)).elim
  exact (silent_or_module library seed selection fragment member).resolve_left loud

end Named

/-- **When a build of the library enables Python**: exactly if one of the modules it names has the
switch for Python in its own. -/
theorem python_switch_iff (validated : ofOptions options platform = .ok record)
    (library : record.target = .library) (here : context.platform = platform)
    (cmake : Text.contains pythonSwitch context.tools.cmake = false)
    (destination : Text.contains pythonSwitch options.destination = false)
    (dir : ∀ dir ∈ options.compilerDir, Text.contains pythonSwitch dir = false) :
    ∃ line, record.configureLine context = .ok line ∧
      (Text.contains pythonSwitch line = true ↔
        ∃ token ∈ ModuleSet.tokens options.modules,
          EnablesPython (ModuleSet.canonicalName token)) := by
  obtain ⟨toolchain, selected⟩ := exists_toolchain validated
  subst here
  refine ⟨_, configureLine_of_toolchain selected, ?_⟩
  rw [switch_infix_joined_iff]
  constructor
  · intro spelled
    obtain ⟨fragment, member, loud⟩ := spelled
    obtain ⟨name, listed, rfl⟩ := exists_module_of_not_silent validated library selected cmake
      destination dir member loud
    obtain ⟨token, written, rfl⟩ := (mem_names_iff validated).mp listed
    exact ⟨token, written, (switch_infix_module_iff _).mp (not_not.mp loud)⟩
  · intro named
    obtain ⟨token, written, enables⟩ := named
    have listed := (mem_names_iff validated).mpr ⟨token, written, rfl⟩
    have member : definition ("BUILD_" ++ ModuleSet.canonicalName token) "ON" ∈
        record.behindDestination toolchain := by
      simp only [behindDestination, List.mem_append, List.mem_map]
      exact .inl (.inl (.inl (.inl (.inr ⟨_, listed, rfl⟩))))
    exact ⟨_, List.mem_cons_of_mem _ (List.mem_append_right _ (List.mem_cons_of_mem _ member)),
      not_not.mpr ((switch_infix_module_iff _).mpr enables)⟩

/-- A module that is called Python in any case is one, although the library is built. -/
theorem python_switch_iff_lower_case :
    ∃ record line, ofOptions { modules := "base+python" } .unix = .ok record ∧
      record.target = .library ∧ record.configureLine {} = .ok line ∧
      Text.contains pythonSwitch line = true := by
  obtain ⟨record, validated⟩ :
      ∃ record, ofOptions { modules := "base+python" } .unix = .ok record := ⟨_, rfl⟩
  have library : record.target = .library := by
    cases validated
    rfl
  have here : ({} : Context).platform = .unix := rfl
  obtain ⟨line, configured, spelled⟩ := python_switch_iff validated library here (by decide)
    (by decide) (fun dir none => by cases none)
  exact ⟨record, line, validated, library, configured,
    spelled.mpr ⟨"python", by decide, .inl (by decide)⟩⟩

end Line

end BuildWarden.BuildRecord
