import BuildWarden.Proofs.Settings.Section
import Mathlib.Data.List.Nodup
/-!
# The settings that come with the program

The lowest layer gives each key the value that it has in the usual configuration, and leaves out the
texts that are absent there. So it holds all that the sections need, in values of the right kinds.
-/

namespace BuildWarden

open Settings

namespace Configuration

/-- The sections of a configuration. -/
def sections : List ((α : Type) × Section α) :=
  [⟨_, toolsSection⟩, ⟨_, buildSection⟩, ⟨_, layoutSection⟩, ⟨_, guidelineSection⟩]

/-- Settings that give the keys of all sections values of their kinds. -/
def Suits (settings : Table) : Prop :=
  ∀ part ∈ sections, part.2.Suits settings

/-- A section goes by its name. -/
theorem section_unique {part other : (α : Type) × Section α} (member : part ∈ sections)
    (known : other ∈ sections) (same : part.2.name = other.2.name) : part = other := by
  have distinct : (sections.map (·.2.name)).Nodup := by decide
  exact List.inj_on_of_nodup_map distinct member known same

/-- The settings that come with the program are those of the usual configuration. -/
theorem builtin_find? : ∀ part ∈ sections, ∃ inside,
    builtin.find? part.2.name = some (.table .builtin inside) ∧ ∀ key ∈ part.2.keys,
      inside.find? key = (({} : Configuration).leaf? part.2.name key).map (.scalar .builtin) := by
  simp [sections, builtin, builtinTable, Table.find?_set, Table.find?, toolsSection, buildSection,
    layoutSection, guidelineSection, Section.keys, Field.of, leaf?, leaves, ToolCommands.leaves,
    BuildOptions.leaves, Layout.leaves, guidelineLeaves, Leaves.value?_cons, List.lookup_cons]

/-- The values of a configuration are of the kinds of their keys. -/
theorem takes_leaf? (configuration : Configuration) : ∀ part ∈ sections, ∀ key ∈ part.2.keys,
    ∀ value, configuration.leaf? part.2.name key = some value →
      part.2.takes key value = true := by
  simp [sections, toolsSection, buildSection, layoutSection, guidelineSection, Section.keys,
    Field.of, leaf?, leaves, ToolCommands.leaves, BuildOptions.leaves, Layout.leaves,
    guidelineLeaves, Leaves.value?_cons, List.lookup_cons, Section.takes, Kind.text, Kind.boolean,
    Kind.path]

/-- A configuration has a value for each key that a section needs. -/
theorem leaf?_of_required (configuration : Configuration) : ∀ part ∈ sections,
    ∀ field ∈ part.2.fields, field.required = true →
      (configuration.leaf? part.2.name field.name).isSome = true := by
  simp [sections, toolsSection, buildSection, layoutSection, guidelineSection, Field.of, leaf?,
    leaves, ToolCommands.leaves, BuildOptions.leaves, Layout.leaves, guidelineLeaves,
    Leaves.value?_cons, List.lookup_cons]

private theorem formed_builtinTable (texts : List (String × String)) (switches : List String) :
    (builtinTable texts switches).Formed := by
  refine List.foldlRecOn _ _ (List.foldlRecOn _ _ Table.formed_empty ?_) ?_
  · exact fun settings formed text _ => formed.set (Setting.formed_scalar _ _) text.1
  · exact fun settings formed name _ => formed.set (Setting.formed_scalar _ _) name

/-- The built-in settings are formed. -/
theorem formed_builtin : builtin.Formed := by
  have given (texts switches) : (Setting.table .builtin (builtinTable texts switches)).Formed :=
    formed_builtinTable texts switches
  exact (((Table.formed_empty.set (given _ _) _).set (given _ _) _).set (given _ _) _).set
    (given _ _) _

/-- The built-in settings hold what the default configuration holds. -/
theorem builtin_value? {part : (α : Type) × Section α} (member : part ∈ sections) {key : String}
    (known : key ∈ part.2.keys) :
    builtin.value? part.2.name key = ({} : Configuration).leaf? part.2.name key := by
  obtain ⟨inside, found, given⟩ := builtin_find? part member
  rw [Table.value?, found]
  simp only [given key known]
  cases ({} : Configuration).leaf? part.2.name key <;> rfl

/-- The built-in settings suit the kinds of their keys. -/
theorem suits_builtin : Suits builtin := by
  intro part member setting found
  obtain ⟨inside, held, given⟩ := builtin_find? part member
  obtain rfl := Option.some.inj (held.symm.trans found)
  refine ⟨_, inside, rfl, fun key known setting here => ?_⟩
  obtain ⟨value, leaf, rfl⟩ := Option.map_eq_some_iff.mp ((given key known).symm.trans here)
  exact ⟨_, value, rfl, takes_leaf? _ part member key known value leaf⟩

/-- The built-in settings have every value that a section needs. -/
theorem complete_builtin {part : (α : Type) × Section α} (member : part ∈ sections) :
    part.2.Complete builtin := fun field fields needed => by
  rw [builtin_value? member (List.mem_map_of_mem fields)]
  exact leaf?_of_required _ part member field fields needed

end Configuration
end BuildWarden
