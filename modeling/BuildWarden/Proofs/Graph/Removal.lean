import BuildWarden.Guideline.GraphFile
import BuildWarden.Proofs.Graph.Reduction
import BuildWarden.Proofs.Tree.Plain
/-!
# Dropping one redundant dependency

A reported dependency can be dropped alone if and only if another dependency of its module leads to
it without coming back to the module. A path that does come back may use the very dependency that is
to be dropped: then the module leads there no longer. Such a path is a cycle through the module, so
on graphs without cycles every report is safe to follow.
-/

namespace BuildWarden.ModuleGraph

open Relation (ReflTransGen)

variable {graph : ModuleGraph} {module dependency source goal : String} {found : Redundancy}

/-! ### Graphs that are read -/

section Load
variable {disk : Disk} {path : String}

/-- Every graph that is read from a file is formed. -/
theorem formed_of_load (loaded : load disk path = .ok graph) : graph.Formed := by
  have formed {settings : Settings.Table} (declared : ofSettings? settings = some graph) :
      graph.Formed := by
    unfold ofSettings? at declared
    split at declared
    · obtain rfl := Option.some.inj declared
      exact .nil
    · obtain ⟨declarations, -, rfl⟩ := Option.map_eq_some_iff.mp declared
      exact formed_ofList declarations
    · cases declared
  unfold load at loaded
  split at loaded
  · obtain rfl := Except.ok.inj loaded
    exact .nil
  split at loaded
  · cases loaded
  split at loaded
  · cases loaded
  split at loaded
  next text _ graph' read =>
    obtain rfl := Except.ok.inj loaded
    obtain ⟨document, -, declared⟩ := Option.bind_eq_some_iff.mp read
    exact formed declared
  · cases loaded

/-- The graph that a file with a text declares. -/
theorem load_of_text {place : Location} {executable : Bool} {content : Bytes} {text : String}
    (leads : disk.open? path = .ok (place, .leaf (.file content executable)))
    (reads : Text.Utf8.decode? content = some text)
    (declares : (Toml.parse? text).bind (fun document => ofSettings? (document.settings .builtin)) =
      some graph) : load disk path = .ok graph := by
  have there : disk.isThere path = true := by
    rw [Disk.isThere, leads]
    rfl
  simp only [load, there, Bool.not_true, Bool.false_eq_true, ↓reduceIte, Disk.read_of_open? leads,
    reads, declares]

end Load

/-! ### Paths past a module -/

/-- The graph in which the module depends on nothing: a path may end there, but not go on. -/
def past (graph : ModuleGraph) (module : String) : ModuleGraph :=
  graph.without fun name _ => name == module

private theorem declares_past {name next : String} :
    (graph.past module).Declares name next ↔ graph.Declares name next ∧ name ≠ module := by
  rw [past, declares_without, beq_eq_false_iff_ne]

/-- A path to a module gets there a first time. -/
theorem LeadsTo.past_goal (leads : graph.LeadsTo source module) :
    (graph.past module).LeadsTo source module := by
  induction leads using ReflTransGen.head_induction_on with
  | refl => exact .refl
  | @head name next declared _ ih =>
      by_cases arrived : name = module
      · rw [arrived]
        exact .refl
      · exact .head (declares_past.mpr ⟨declared, arrived⟩) ih

/-- A path from where nothing leads to the module goes past it. -/
theorem LeadsTo.past_of_away (leads : graph.LeadsTo source goal)
    (away : ¬graph.LeadsTo source module) : (graph.past module).LeadsTo source goal := by
  induction leads using ReflTransGen.head_induction_on with
  | refl => exact .refl
  | @head name next declared _ ih =>
      have elsewhere : name ≠ module := fun same => away (same ▸ .refl)
      have further : ¬graph.LeadsTo next module := fun back => away (.head declared back)
      exact .head (declares_past.mpr ⟨declared, elsewhere⟩) (ih further)

/-- A path never is at a module, or it leaves it a last time. -/
theorem LeadsTo.past_or_leaves (module : String) (leads : graph.LeadsTo source goal) :
    (graph.past module).LeadsTo source goal ∨
      ∃ other, graph.Declares module other ∧ (graph.past module).LeadsTo other goal := by
  induction leads using ReflTransGen.head_induction_on with
  | refl => exact .inl .refl
  | @head name next declared _ ih =>
      rcases ih with stays | leaves
      · by_cases here : name = module
        · exact .inr ⟨next, here ▸ declared, stays⟩
        · exact .inl (.head (declares_past.mpr ⟨declared, here⟩) stays)
      · exact .inr leaves

/-- A module that leads elsewhere leaves itself a last time. -/
theorem LeadsTo.exists_leaves (leads : graph.LeadsTo module goal) (elsewhere : module ≠ goal) :
    ∃ other, graph.Declares module other ∧ (graph.past module).LeadsTo other goal := by
  rcases leads.past_or_leaves module with stays | leaves
  · rcases ReflTransGen.cases_head stays with same | ⟨next, declared, -⟩
    · exact (elsewhere same).elim
    · exact ((declares_past.mp declared).2 rfl).elim
  · exact leaves

/-! ### Paths without one dependency -/

private theorem declares_forgetting {name next : String} :
    (graph.forgetting module dependency).Declares name next ↔
      graph.Declares name next ∧ ¬(name = module ∧ next = dependency) := by
  rw [forgetting, declares_without, ← Bool.not_eq_true, Bool.and_eq_true, beq_iff_eq, beq_iff_eq]

/-- A path past the module does not use its dependency. -/
theorem LeadsTo.forgetting_of_past (leads : (graph.past module).LeadsTo source goal) :
    (graph.forgetting module dependency).LeadsTo source goal := by
  refine ReflTransGen.mono (fun name next declared => ?_) _ _ leads
  obtain ⟨declared, elsewhere⟩ := declares_past.mp declared
  exact declares_forgetting.mpr ⟨declared, fun same => elsewhere same.1⟩

/-- A dependency can be dropped if its module leads to it without it. -/
theorem reaches_forgetting_iff (declared : graph.Declares module dependency) :
    (∀ source goal, (graph.forgetting module dependency).reaches source goal =
        graph.reaches source goal) ↔
      (graph.forgetting module dependency).LeadsTo module dependency := by
  simp only [reaches_eq_iff]
  constructor
  · intro same
    exact (same module dependency).mpr (.single declared)
  · intro around source goal
    refine ⟨LeadsTo.of_without, fun leads => ?_⟩
    induction leads using ReflTransGen.head_induction_on with
    | refl => exact .refl
    | @head name next edge _ ih =>
        by_cases dropped : name = module ∧ next = dependency
        · obtain ⟨rfl, rfl⟩ := dropped
          exact around.trans ih
        · exact .head (declares_forgetting.mpr ⟨edge, dropped⟩) ih

/-- A module leads to a dropped dependency if another one leads there past the module. -/
theorem leadsTo_forgetting_iff (elsewhere : module ≠ dependency) :
    (graph.forgetting module dependency).LeadsTo module dependency ↔
      ∃ other, graph.Declares module other ∧ other ≠ dependency ∧
        (graph.past module).LeadsTo other dependency := by
  constructor
  · intro leads
    obtain ⟨other, declared, onward⟩ := leads.exists_leaves elsewhere
    obtain ⟨declared, kept⟩ := declares_forgetting.mp declared
    refine ⟨other, declared, fun same => kept ⟨rfl, same⟩, ?_⟩
    refine ReflTransGen.mono (fun name next step => ?_) _ _ onward
    obtain ⟨step, away⟩ := declares_past.mp step
    exact declares_past.mpr ⟨(declares_forgetting.mp step).1, away⟩
  · rintro ⟨other, declared, different, onward⟩
    exact .head (declares_forgetting.mpr ⟨declared, fun same => different same.2⟩)
      onward.forgetting_of_past

/-- **Which reports are safe to follow.** Without a reported dependency everything leads where it
led, exactly if another dependency of the module leads to the dropped one past the module. The one
that the report names does so unless it leads back to the module; and otherwise the module leads to
the dropped dependency no longer. -/
theorem droppable_iff (formed : graph.Formed) (listed : found ∈ graph.redundancies) :
    let dropped := graph.forgetting found.module found.dependency
    let safe := ∀ source goal, dropped.reaches source goal = graph.reaches source goal
    (safe ↔ ∃ other, graph.Declares found.module other ∧ other ≠ found.dependency ∧
        (graph.past found.module).LeadsTo other found.dependency) ∧
      (¬graph.LeadsTo found.via found.module → safe) ∧
      (¬safe ↔ dropped.reaches found.module found.dependency = false) := by
  intro dropped safe
  obtain ⟨front, back, split, ⟨different, leads⟩, -⟩ := formed.first_via listed
  have declaredVia : graph.Declares found.module found.via := by
    rw [Declares, split]
    exact List.mem_append_right _ List.mem_cons_self
  have declared : graph.Declares found.module found.dependency := by
    obtain ⟨_, member, listed, -⟩ := mem_redundancies.mp listed
    rwa [Declares, formed.dependencies_eq member]
  have around : safe ↔ dropped.LeadsTo found.module found.dependency :=
    reaches_forgetting_iff declared
  have detours : safe ↔ ∃ other, graph.Declares found.module other ∧ other ≠ found.dependency ∧
      (graph.past found.module).LeadsTo other found.dependency := by
    rw [around]
    by_cases itself : found.module = found.dependency
    -- a module leads to itself anyway, and the named detour gets there a first time
    · rw [← itself] at leads different ⊢
      exact ⟨fun _ => ⟨found.via, declaredVia, different, leads.past_goal⟩, fun _ => .refl⟩
    · exact leadsTo_forgetting_iff itself
  refine ⟨detours, fun away => ?_, ?_⟩
  · exact detours.mpr ⟨found.via, declaredVia, different, leads.past_of_away away⟩
  · rw [around, ← reaches_iff, Bool.not_eq_true]

/-- Two modules that depend on each other: `B` leads to `C` through `A` only, so without its
dependency on `C`, which is reported, `A` leads to `C` no longer. -/
theorem droppable_iff_on_cycle :
    let text := "[modules]\nA = [\"B\", \"C\"]\nB = [\"A\"]\n"
    let disk : Disk := { tree := .leaf "deps.toml" (.file (Text.Utf8.encode text) false) .empty }
    let graph := ofList [("A", ["B", "C"]), ("B", ["A"])]
    load disk "deps.toml" = .ok graph ∧ graph.redundancies = [⟨"A", "C", "B"⟩] ∧
      (graph.forgetting "A" "C").reaches "A" "C" = false ∧
      ¬∀ source goal, (graph.forgetting "A" "C").reaches source goal =
        graph.reaches source goal := by
  intro text disk graph
  have loaded : load disk "deps.toml" = .ok graph := by
    have steps : Disk.steps "deps.toml" = ["deps.toml"] := by decide
    have relative : Path.isAbsolute "deps.toml" = false := by decide
    have leads : disk.open? "deps.toml" =
        .ok (["deps.toml"], .leaf (.file (Text.Utf8.encode text) false)) := by
      simp [disk, Disk.open?, Disk.locate, Disk.locateFrom, steps, relative, Disk.follow, Tree.at?,
        Tree.find?]
    have reads : Text.Utf8.decode? (Text.Utf8.encode text) = some text := by decide +kernel
    exact load_of_text leads reads (by decide +kernel)
  have reported : graph.redundancies = [⟨"A", "C", "B"⟩] := by
    have sorted : graph = ⟨[("A", ["B", "C"]), ("B", ["A"])]⟩ := by decide
    simp [sorted, redundancies, via?, reaches, finds, dependencies, List.lookup_cons]
  have lost : (graph.forgetting "A" "C").reaches "A" "C" = false := by
    have left : graph.forgetting "A" "C" = ⟨[("A", ["B"]), ("B", ["A"])]⟩ := by decide
    simp [left, reaches, finds, dependencies, List.lookup_cons]
  have listed : (⟨"A", "C", "B"⟩ : Redundancy) ∈ graph.redundancies := by
    rw [reported]
    exact List.mem_singleton_self _
  obtain ⟨-, -, breaks⟩ := droppable_iff (formed_of_load loaded) listed
  exact ⟨loaded, reported, lost, breaks.mpr lost⟩

end BuildWarden.ModuleGraph
