import BuildWarden.Settings.Configuration
/-!
# Leaves of a configuration

A configuration holds a value for each of the keys that its files may name: a text or a switch. Some
texts may be absent. `leaf?` reads a value by the name of its section and its key, which is how
settings and arguments are told to agree with the record that they are read into.
-/

namespace BuildWarden

open Settings

/-- Keys with their values. -/
abbrev Leaves := List (String × Option Scalar)

namespace Leaves

/-- The value of a key. -/
def value? (leaves : Leaves) (key : String) : Option Scalar :=
  (leaves.lookup key).join

/-- The value of a key is that of the first leaf with the key. -/
theorem value?_cons (key other : String) (value : Option Scalar) (rest : Leaves) :
    value? ((other, value) :: rest) key = if key = other then value else rest.value? key := by
  rw [value?, List.lookup_cons]
  by_cases same : key = other
  · simp [same]
  · simp [same, beq_eq_false_iff_ne.mpr same, value?]

/-- The leaves with the values that others put over them. -/
def under (leaves : Leaves) (upper? : String → Option Scalar) : Leaves :=
  leaves.map fun (key, value) => (key, (upper? key).or value)

private theorem lookup_under (leaves : Leaves) (upper? : String → Option Scalar) (key : String) :
    (leaves.under upper?).lookup key = (leaves.lookup key).map (upper? key).or := by
  induction leaves with
  | nil => rfl
  | cons leaf rest ih =>
      rw [under, List.map_cons, List.lookup_cons, List.lookup_cons]
      by_cases same : key = leaf.1
      · simp [same]
      · simp only [beq_eq_false_iff_ne.mpr same]
        exact ih

/-- A key that no leaf has has no value. -/
theorem value?_eq_none {leaves : Leaves} {key : String} (absent : key ∉ leaves.map Prod.fst) :
    leaves.value? key = none := by
  have nothing : leaves.lookup key = none := by
    rw [List.lookup_eq_none_iff]
    intro leaf member
    have other : key ≠ leaf.1 := fun same => absent (List.mem_map.mpr ⟨leaf, member, same.symm⟩)
    simpa using other
  rw [value?, nothing, Option.join_none]

/-- Only a key that is there has a value. -/
theorem mem_of_value? {leaves : Leaves} {key : String}
    (given : (leaves.value? key).isSome = true) : key ∈ leaves.map Prod.fst := by
  refine Decidable.byContradiction fun absent => ?_
  rw [value?_eq_none absent] at given
  cases given

/-- A value that is put over known keys decides; all other keys keep theirs. -/
theorem value?_under {leaves : Leaves} {upper? : String → Option Scalar}
    (known : ∀ key, (upper? key).isSome = true → key ∈ leaves.map Prod.fst) (key : String) :
    (leaves.under upper?).value? key = (upper? key).or (leaves.value? key) := by
  rw [value?, lookup_under, value?]
  cases upper : upper? key with
  | none => cases leaves.lookup key <;> rfl
  | some value =>
      obtain ⟨leaf, member, rfl⟩ := List.mem_map.mp (known key (by rw [upper]; rfl))
      obtain ⟨old, found⟩ : ∃ old, leaves.lookup leaf.1 = some old :=
        Option.isSome_iff_exists.mp (List.lookup_isSome_iff.mpr ⟨leaf, member, by simp⟩)
      rw [found]
      rfl

/-- The leaves with another value for a key. -/
def replaced (key : String) (value : Scalar) (leaves : Leaves) : Leaves :=
  leaves.under fun other => if other = key then some value else none

/-- A replaced value is the new one, and all other keys keep theirs. -/
theorem value?_replaced {key : String} {leaves : Leaves} (known : key ∈ leaves.map Prod.fst)
    (value : Scalar) (other : String) :
    (leaves.replaced key value).value? other =
      if other = key then some value else leaves.value? other := by
  rw [replaced, value?_under]
  · split <;> rfl
  · intro other given
    by_cases same : other = key
    · exact same ▸ known
    · simp [same] at given

/-- Leaves of the same keys are told apart by the value of a key. -/
theorem eq_of_value? {leaves others : Leaves} (distinct : (leaves.map Prod.fst).Nodup)
    (keys : leaves.map Prod.fst = others.map Prod.fst)
    (same : ∀ key, leaves.value? key = others.value? key) : leaves = others := by
  induction leaves generalizing others with
  | nil => exact (List.map_eq_nil_iff.mp keys.symm).symm
  | cons leaf leaves ih =>
      obtain ⟨key, value⟩ := leaf
      cases others with
      | nil => cases keys
      | cons other others =>
          obtain ⟨_, given⟩ := other
          obtain ⟨rfl, further⟩ := List.cons.inj keys
          obtain ⟨once, distinct⟩ := List.nodup_cons.mp distinct
          have here : value = given := by simpa [value?_cons] using same key
          have behind (query : String) : value? leaves query = value? others query := by
            by_cases first : query = key
            · rw [first, value?_eq_none once, value?_eq_none (further ▸ once)]
            · simpa [value?_cons, first] using same query
          rw [here, ih distinct further behind]

end Leaves

/-- The commands of the tools by key. -/
def ToolCommands.leaves (tools : ToolCommands) : Leaves :=
  [("cmake", some (.text tools.cmake)), ("make", some (.text tools.make)),
    ("msbuild", some (.text tools.msbuild)), ("python", some (.text tools.python)),
    ("clang_format", some (.text tools.clangFormat)),
    ("doc_linter", some (.text tools.docLinter))]

/-- The options of a build by key. -/
def BuildOptions.leaves (options : BuildOptions) : Leaves :=
  [("action", some (.text options.action)), ("mode", some (.text options.mode)),
    ("target", some (.text options.target)), ("modules", some (.text options.modules)),
    ("jobs", some (.text options.jobs)), ("tests", some (.text options.tests)),
    ("threads", some (.text options.threads)), ("destination", some (.text options.destination)),
    ("compiler", options.compiler.map .text), ("compiler_dir", options.compilerDir.map .text),
    ("python3lib", options.pythonLibrary.map .text),
    ("python3include", options.pythonInclude.map .text),
    ("fixed_seed_value", some (.text options.seed)), ("with_sql", some (.boolean options.withSql)),
    ("static_lib", some (.boolean options.staticLib)),
    ("coverage", some (.boolean options.coverage)),
    ("profiling", some (.boolean options.profiling)), ("verbose", some (.boolean options.verbose)),
    ("fixed_seed", some (.boolean options.fixedSeed)),
    ("dry_run", some (.boolean options.dryRun))]

/-- The directories by key. -/
def Layout.leaves (layout : Layout) : Leaves :=
  [("root", some (.text layout.root)), ("sources", some (.text layout.sources)),
    ("library", some (.text layout.library)), ("testunits", some (.text layout.testunits)),
    ("build", some (.text layout.build))]

/-- The settings of the guideline by key. -/
def guidelineLeaves (dependencyGraph : String) : Leaves :=
  [("dependency_graph", some (.text dependencyGraph))]

/-- The sections of a configuration with their leaves. -/
def Configuration.leaves (configuration : Configuration) : List (String × Leaves) :=
  [("tools", configuration.tools.leaves), ("build", configuration.build.leaves),
    ("layout", configuration.layout.leaves),
    ("guideline", guidelineLeaves configuration.dependencyGraph)]

/-- The value of a key of a section. -/
def Configuration.leaf? (configuration : Configuration) (part key : String) : Option Scalar :=
  (configuration.leaves.lookup part).bind (·.value? key)

/-- The value of an option. -/
def BuildOptions.leaf? (options : BuildOptions) (key : String) : Option Scalar :=
  options.leaves.value? key

/-- Options with the same values are the same. -/
theorem BuildOptions.eq_of_leaf? {options other : BuildOptions}
    (same : ∀ key, options.leaf? key = other.leaf? key) : options = other := by
  have all : options.leaves = other.leaves :=
    Leaves.eq_of_value? (by simp [leaves]) rfl same
  have texts (text given : Option String) : text.map Scalar.text = given.map .text ↔ text = given :=
    (Option.map_injective fun _ _ => Scalar.text.inj).eq_iff
  cases options
  cases other
  simpa [leaves, texts] using all

/-- The leaves of a record follow what is written to the fields of its section. -/
structure Settings.Section.Shows {α : Type} (part : Section α) (leaves : α → Leaves) : Prop where
  keys : ∀ target, (leaves target).map Prod.fst = part.fields.map (·.name)
  written : ∀ field ∈ part.fields, ∀ value write, field.write? value = some write →
    ∀ target, leaves (write target) = (leaves target).replaced field.name value

namespace Configuration

/-- The section of the tools shows the leaves of the tools. -/
theorem toolsSection_shows : toolsSection.Shows ToolCommands.leaves where
  keys _ := rfl
  written := by
    intro field member value write written target
    simp only [toolsSection, List.mem_cons, List.not_mem_nil, or_false] at member
    rcases member with rfl | rfl | rfl | rfl | rfl | rfl <;>
    · obtain ⟨text, read, rfl⟩ := Option.map_eq_some_iff.mp written
      cases value <;> cases read
      simp [ToolCommands.leaves, Leaves.replaced, Leaves.under, Field.of]

/-- The section of the build shows the leaves of the build options. -/
theorem buildSection_shows : buildSection.Shows BuildOptions.leaves where
  keys _ := rfl
  written := by
    intro field member value write written target
    simp only [buildSection, List.mem_cons, List.not_mem_nil, or_false] at member
    rcases member with rfl | rfl | rfl | rfl | rfl | rfl | rfl | rfl | rfl | rfl | rfl | rfl |
      rfl | rfl | rfl | rfl | rfl | rfl | rfl | rfl <;>
    · obtain ⟨text, read, rfl⟩ := Option.map_eq_some_iff.mp written
      cases value <;> cases read
      simp [BuildOptions.leaves, Leaves.replaced, Leaves.under, Field.of]

/-- The section of the layout shows the leaves of the layout. -/
theorem layoutSection_shows : layoutSection.Shows Layout.leaves where
  keys _ := rfl
  written := by
    intro field member value write written target
    simp only [layoutSection, List.mem_cons, List.not_mem_nil, or_false] at member
    rcases member with rfl | rfl | rfl | rfl | rfl <;>
    · obtain ⟨text, read, rfl⟩ := Option.map_eq_some_iff.mp written
      cases value <;> cases read
      simp [Layout.leaves, Leaves.replaced, Leaves.under, Field.of]

/-- The section of the guideline shows its one leaf. -/
theorem guidelineSection_shows : guidelineSection.Shows guidelineLeaves where
  keys _ := rfl
  written := by
    intro field member value write written target
    simp only [guidelineSection, List.mem_cons, List.not_mem_nil, or_false] at member
    subst member
    obtain ⟨text, read, rfl⟩ := Option.map_eq_some_iff.mp written
    cases value <;> cases read
    simp [guidelineLeaves, Leaves.replaced, Leaves.under, Field.of]

end Configuration
end BuildWarden
