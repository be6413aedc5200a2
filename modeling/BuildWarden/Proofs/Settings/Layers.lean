import BuildWarden.Proofs.Settings.Builtin
import BuildWarden.Proofs.Settings.ProjectFile
import BuildWarden.Proofs.Tree.Steps
/-!
# Layers of settings

The four layers of a configuration, each of which gives values to some of the known keys: loading
them succeeds, and each key has the value of the highest layer that gives it one. Only a relative
root is then taken from the base directory.
-/

namespace BuildWarden

open Settings

/-- The settings of a document are formed. -/
theorem Toml.Document.formed_settings (origin : Origin) (document : Toml.Document) :
    (document.settings origin).Formed := by
  induction document with
  | empty => exact Table.formed_empty
  | value name scalar rest ih => exact ih.set (Setting.formed_scalar origin scalar) name
  | table name kind inside rest within ih => exact ih.set (Setting.formed_table origin within) name
  | tables name earlier last rest _ ih => exact ih.set (Setting.formed_scalar origin _) name

namespace Configuration

/-! ### The settings of variables -/

/-- A variable that names no setting, or gives a known key a value of its kind. -/
def SuitsEntry (entry : String × String) : Prop :=
  ∀ path, Environment.path? entry.1 = some path → ∃ part ∈ sections, ∃ key ∈ part.2.keys,
    ∃ value, path = [part.2.name, key] ∧
      Environment.read entry.2 = Environment.given value ∧ part.2.takes key value = true

/-- The value that a variable gives a key. -/
def assigned? (part key : String) (entry : String × String) : Option Scalar :=
  if Environment.path? entry.1 = some [part, key] then (Environment.read entry.2).scalar?
  else none

/-- The value that variables give a key: that of the last one that names it. -/
def environmentValue? (environment : List (String × String)) (part key : String) : Option Scalar :=
  environment.reverse.findSome? (assigned? part key)

private theorem settings_concat (environment : List (String × String)) (entry : String × String) :
    Environment.settings (environment ++ [entry]) =
      match Environment.path? entry.1 with
      | some path => (Environment.settings environment).merge
          (.nest path .environment (Environment.read entry.2))
      | none => Environment.settings environment := by
  rw [Environment.settings, List.foldl_append]
  rfl

/-- Settings that give one key of one section its value. -/
theorem nest_value {part : (α : Type) × Section α} (member : part ∈ sections) {name : String}
    {value : Scalar} (taken : part.2.takes name value = true) (origin : Origin) :
    Suits (.nest [part.2.name, name] origin (.scalar origin value)) ∧
      ∀ other ∈ sections, ∀ key,
        (Table.nest [part.2.name, name] origin (.scalar origin value)).value? other.2.name key =
          if [part.2.name, name] = [other.2.name, key] then some value else none := by
  have found (key : String) : (Table.empty.set name (.scalar origin value)).find? key =
      if name = key then some (.scalar origin value) else none :=
    Table.find?_set name key _ .empty
  have held (other : String) :
      (Table.nest [part.2.name, name] origin (.scalar origin value)).find? other =
        if part.2.name = other then
          some (.table origin (Table.empty.set name (.scalar origin value)))
        else none :=
    Table.find?_set part.2.name other _ .empty
  refine ⟨fun other known setting here => ?_, fun other known key => ?_⟩
  · rw [held] at here
    split at here
    next same =>
      obtain rfl := section_unique member known same
      cases here
      refine ⟨_, _, rfl, fun key _ setting inside => ?_⟩
      rw [found] at inside
      split at inside
      next equal =>
        cases inside
        exact ⟨_, value, rfl, equal ▸ taken⟩
      next => cases inside
    next => cases here
  · rw [Table.value?, held]
    by_cases same : part.2.name = other.2.name
    · rw [if_pos same]
      simp only [found, same]
      by_cases equal : name = key
      · rw [if_pos equal, if_pos (by rw [equal])]
        rfl
      · rw [if_neg equal, if_neg (by simpa using equal)]
        rfl
    · rw [if_neg same, if_neg fun equal => same (List.cons.inj equal).1]

/-- **The settings of variables give each key the value of the last variable that names it.** -/
theorem settings_entries {environment : List (String × String)}
    (suits : ∀ entry ∈ environment, SuitsEntry entry) :
    (Environment.settings environment).Formed ∧ Suits (Environment.settings environment) ∧
      ∀ part ∈ sections, ∀ key ∈ part.2.keys,
        (Environment.settings environment).value? part.2.name key =
          environmentValue? environment part.2.name key := by
  -- the last variable is laid over all the others, so the induction is from the end
  induction environment using List.reverseRecOn with
  | nil => exact ⟨Table.formed_empty, fun _ _ _ found => (by cases found), fun _ _ _ _ => rfl⟩
  | append_singleton environment entry ih =>
      obtain ⟨formed, proper, values⟩ := ih fun other member => suits other (by simp [member])
      have last (part key : String) : environmentValue? (environment ++ [entry]) part key =
          (assigned? part key entry).or (environmentValue? environment part key) := by
        rw [environmentValue?, List.reverse_append]
        cases given : assigned? part key entry <;> simp [environmentValue?, given]
      rw [settings_concat]
      cases named : Environment.path? entry.1 with
      | none =>
          refine ⟨formed, proper, fun part member key known => ?_⟩
          rw [last, assigned?, named]
          exact values part member key known
      | some path =>
          obtain ⟨part, member, name, -, value, rfl, read, taken⟩ :=
            suits entry (by simp) path named
          obtain ⟨fits, given⟩ := nest_value member taken .environment
          have sound : (Table.nest [part.2.name, name] .environment
              (.scalar .environment value)).Formed :=
            Table.formed_nest (Setting.formed_scalar _ value) _ _
          simp only [read, Environment.given]
          refine ⟨formed.merge sound, fun other known => ?_, fun other known key key_known => ?_⟩
          · exact ((fits other known).merge sound (proper other known) formed).1
          · rw [((fits other known).merge sound (proper other known) formed).2 key key_known,
              given other known, values other known key key_known, last, assigned?, named, read]
            simp only [Option.some.injEq]
            rfl

/-! ### Loading -/

/-- Settings that suit all sections, and give them all they need, are read into a configuration with
their values. -/
theorem ofSettings_ok {settings : Table} (formed : settings.Formed) (suits : Suits settings)
    (complete : ∀ part ∈ sections, part.2.Complete settings) :
    ∃ configuration, ofSettings settings = .ok configuration ∧
      ∀ part ∈ sections, ∀ key ∈ part.2.keys, configuration.leaf? part.2.name key =
        (settings.value? part.2.name key).or
          (({ dependencyGraph := "" } : Configuration).leaf? part.2.name key) := by
  have sectioned {α : Type} {part : Section α} {leaves : α → Leaves}
      (member : ⟨α, part⟩ ∈ sections) (shows : part.Shows leaves) (target : α) :=
    shows.readSection formed (suits ⟨α, part⟩ member) (complete ⟨α, part⟩ member) target
  obtain ⟨build, readBuild, builds⟩ := sectioned (by simp [sections]) buildSection_shows {}
  obtain ⟨graph, readGraph, graphs⟩ := sectioned (by simp [sections]) guidelineSection_shows ""
  obtain ⟨layout, readLayout, layouts⟩ := sectioned (by simp [sections]) layoutSection_shows {}
  obtain ⟨tools, readTools, tooled⟩ := sectioned (by simp [sections]) toolsSection_shows {}
  refine ⟨⟨tools, build, layout, graph⟩, ?_, fun part member key known => ?_⟩
  · simp only [ofSettings, readBuild, readGraph, readLayout, readTools]
    rfl
  · simp only [sections, List.mem_cons, List.not_mem_nil, or_false] at member
    rcases member with rfl | rfl | rfl | rfl
    · exact tooled key known
    · exact builds key known
    · exact layouts key known
    · exact graphs key known

/-- Reading the sections of a configuration adds no value to those of the usual one. -/
theorem leaf?_blank : ∀ part ∈ sections, ∀ key ∈ part.2.keys,
    (({} : Configuration).leaf? part.2.name key).or
        (({ dependencyGraph := "" } : Configuration).leaf? part.2.name key) =
      ({} : Configuration).leaf? part.2.name key := by
  intro part member key known
  simp only [sections, List.mem_cons, List.not_mem_nil, or_false] at member
  rcases member with rfl | rfl | rfl | rfl
  · exact Option.or_self
  · exact Option.or_self
  · exact Option.or_self
  · obtain rfl := List.mem_singleton.mp known
    rfl

/-- Where a file of settings is left out, there are none. -/
theorem formed_fileSettings {disk : Disk} {path : String} {settings : Table}
    (read : fileSettings disk path = .ok settings) : settings.Formed := by
  unfold fileSettings at read
  split at read
  · cases read
    exact Table.formed_empty
  · simp only at read
    split at read
    · cases read
      exact Toml.Document.formed_settings _ _
    · cases read

/-- A relative root is taken from the base directory; all other values stay as they are. -/
def placed (base part key : String) (value : Scalar) : Scalar :=
  match value with
  | .text root =>
    if part = "layout" ∧ key = "root" ∧ Path.isAbsolute root = false then
      .text (Path.join base root)
    else .text root
  | value => value

private theorem placed_of_ne {part key : String} (other : ¬(part = "layout" ∧ key = "root"))
    (base : String) : placed base part key = id := by
  funext value
  cases value with
  | text root => exact if_neg fun same => other ⟨same.1, same.2.1⟩
  | _ => rfl

private theorem placed_root (base root : String) :
    placed base "layout" "root" (.text root) = .text (Path.join base root) := by
  unfold placed Path.join
  by_cases absolute : Path.isAbsolute root = true <;> simp [absolute]

/-- The leaves of a configuration whose root is taken from the base directory. -/
theorem leaf?_placed (configuration : Configuration) (base : String) :
    ∀ part ∈ sections, ∀ key ∈ part.2.keys,
      ({ configuration with
        layout.root := Path.join base configuration.layout.root } : Configuration).leaf?
          part.2.name key =
        (configuration.leaf? part.2.name key).map (placed base part.2.name key) := by
  intro part member key known
  by_cases root : part.2.name = "layout" ∧ key = "root"
  · obtain ⟨name, rfl⟩ := root
    rw [name]
    exact (congrArg some (placed_root base configuration.layout.root)).symm
  · rw [placed_of_ne root, Option.map_id]
    simp only [sections, List.mem_cons, List.not_mem_nil, or_false] at member
    rcases member with rfl | rfl | rfl | rfl
    · rfl
    · rfl
    · have other : key ≠ "root" := fun same => root ⟨rfl, same⟩
      have replaced : Layout.leaves { configuration.layout with
            root := Path.join base configuration.layout.root } =
          configuration.layout.leaves.replaced "root"
            (.text (Path.join base configuration.layout.root)) := by
        simp [Layout.leaves, Leaves.replaced, Leaves.under]
      refine (congrArg (·.value? key) replaced).trans ?_
      exact (Leaves.value?_replaced (by simp [Layout.leaves]) _ key).trans (if_neg other)
    · rfl

/-- The value that the highest layer gives a key. -/
def highest? (environment : List (String × String)) (own project : Table) (part key : String) :
    Option Scalar :=
  (environmentValue? environment part key).or
    ((own.value? part key).or ((project.value? part key).or (builtin.value? part key)))

/-- A file that moves the root. -/
def ownRoot : Bytes :=
  Text.Utf8.encode "layout.root='a'"

private theorem parse_ownRoot : Toml.parseBytes? ownRoot =
    some (.table "layout" .dotted (.value "root" (.text "a") .empty) .empty) :=
  eq_of_isDottedText (by decide +kernel)

section Loading
variable {disk : Disk} {environment : List (String × String)} {base : String}
  {custom : Option String} {project own : Table}
  (readProject : fileSettings disk (Path.join base projectFile) = .ok project)
  (readOwn : custom.elim (.ok .empty) (fileSettings disk) = .ok own)
  (suitsProject : Suits project) (suitsOwn : Suits own)
  (suitsEntries : ∀ entry ∈ environment, SuitsEntry entry)
include readProject readOwn suitsProject suitsOwn suitsEntries

/-- Layers that suit all sections are laid over each other key by key. -/
theorem layers_ok : ∃ settings, layers disk environment base custom = .ok settings ∧
    settings.Formed ∧ ∀ part ∈ sections, part.2.Suits settings ∧ part.2.Complete settings ∧
      ∀ key ∈ part.2.keys, settings.value? part.2.name key =
        highest? environment own project part.2.name key := by
  obtain ⟨formed, suits, values⟩ := settings_entries suitsEntries
  have formedProject : project.Formed := formed_fileSettings readProject
  have formedOwn : own.Formed := by
    cases custom with
    | none =>
        cases readOwn
        exact Table.formed_empty
    | some path => exact formed_fileSettings readOwn
  have lower := formed_builtin.merge formedProject
  have upper := lower.merge formedOwn
  refine ⟨((builtin.merge project).merge own).merge (Environment.settings environment), ?_,
    upper.merge formed, fun part member => ?_⟩
  · simp only [layers, readProject]
    cases custom with
    | none =>
        cases readOwn
        rfl
    | some path =>
        simp only [show fileSettings disk path = .ok own from readOwn]
        rfl
  · have one := (suitsProject part member).merge formedProject (suits_builtin part member)
      formed_builtin
    have two := (suitsOwn part member).merge formedOwn one.1 lower
    have three := (suits part member).merge formed two.1 upper
    refine ⟨three.1, ?_, fun key known => ?_⟩
    · exact (((complete_builtin member).merge one.2).merge two.2).merge three.2
    · rw [three.2 key known, two.2 key known, one.2 key known, values part member key known]
      rfl

/-- **Every key has the value of the highest layer that gives it one.** The environment stands over
the user's own file, this over the file of the project, and this over the settings that come with
the program. A key without a value in any layer has none, and only a relative root is then taken
from the base directory. -/
theorem load_takes_highest :
    ∃ configuration, load disk environment base custom = .ok configuration ∧
      ∀ part ∈ sections, ∀ key ∈ part.2.keys, configuration.leaf? part.2.name key =
        (highest? environment own project part.2.name key).map (placed base part.2.name key) := by
  obtain ⟨settings, layered, formed, all⟩ :=
    layers_ok readProject readOwn suitsProject suitsOwn suitsEntries
  obtain ⟨configuration, read, leaves⟩ := ofSettings_ok formed (fun part member =>
    (all part member).1) fun part member => (all part member).2.1
  refine ⟨{ configuration with layout.root := Path.join base configuration.layout.root }, ?_,
    fun part member key known => ?_⟩
  · simp only [load, layered, bind, Except.bind, read]
    rfl
  · rw [leaf?_placed configuration base part member key known, leaves part member key known,
      (all part member).2.2 key known, highest?, Option.or_assoc, Option.or_assoc, Option.or_assoc,
      builtin_value? member known, leaf?_blank part member key known]

end Loading

/-- A file of the project asks for three jobs, a file of the user's own moves the root, and a
variable asks for all jobs. -/
theorem load_takes_highest_three_layers :
    ∃ disk, ∃ project own configuration,
      fileSettings disk (Path.join "." projectFile) = .ok project ∧
      fileSettings disk "own.toml" = .ok own ∧ Suits project ∧ Suits own ∧
      SuitsEntry ("ACT_BUILD__JOBS", "all") ∧
      load disk [("ACT_BUILD__JOBS", "all")] "." (some "own.toml") = .ok configuration ∧
      configuration.leaf? "build" "jobs" = some (.text "all") ∧
      configuration.leaf? "layout" "root" = some (.text "./a") ∧
      configuration.leaf? "tools" "make" = some (.text "make") ∧
      configuration.leaf? "build" "compiler" = none := by
  let disk : Disk :=
    { tree := .leaf projectFile (.file threeJobs false)
        (.leaf "own.toml" (.file ownRoot false) .empty) }
  have build : (⟨_, buildSection⟩ : (α : Type) × Section α) ∈ sections := by simp [sections]
  have layout : (⟨_, layoutSection⟩ : (α : Type) × Section α) ∈ sections := by simp [sections]
  have tools : (⟨_, toolsSection⟩ : (α : Type) × Section α) ∈ sections := by simp [sections]
  have jobs : buildSection.takes "jobs" (.text "3") = true := by decide
  have root : layoutSection.takes "root" (.text "a") = true := by decide
  have readProject : fileSettings disk (Path.join "." projectFile) = .ok _ :=
    fileSettings_of_text (by decide) (projectText?_file rfl) parse_threeJobs
  have foundOwn : disk.fileText? disk.here "own.toml" = some ownRoot := by
    refine Disk.fileText?_eq_some.mpr ⟨["own.toml"], false, ?_⟩
    rw [Disk.locateFrom_name disk true _ (by decide)]
    exact Disk.follow_file ⟨by decide, by decide⟩ rfl
  have readOwn : fileSettings disk "own.toml" = .ok _ :=
    fileSettings_of_text (by decide) foundOwn parse_ownRoot
  have suitsEntry : SuitsEntry ("ACT_BUILD__JOBS", "all") := by
    intro path named
    obtain rfl := Option.some.inj (named.symm.trans (by decide : _ = some ["build", "jobs"]))
    exact ⟨_, build, "jobs", by decide, .text "all", rfl, rfl, by decide⟩
  have suitsProject := (nest_value build jobs (.file (shownFile disk disk.here
    (Path.join "." projectFile)))).1
  have suitsOwn := (nest_value layout root (.file (shownFile disk disk.here "own.toml"))).1
  obtain ⟨configuration, loaded, leaves⟩ := @load_takes_highest disk [("ACT_BUILD__JOBS", "all")]
    "." (some "own.toml") _ _ readProject readOwn suitsProject suitsOwn (by simpa using suitsEntry)
  refine ⟨disk, _, _, configuration, readProject, readOwn, suitsProject, suitsOwn, suitsEntry,
    loaded, ?_, ?_, ?_, ?_⟩
  · exact (leaves _ build "jobs" (by decide)).trans rfl
  · exact (leaves _ layout "root" (by decide)).trans rfl
  · exact (leaves _ tools "make" (by decide)).trans rfl
  · exact (leaves _ build "compiler" (by decide)).trans rfl

end Configuration
end BuildWarden
