import BuildWarden.Proofs.Graph.Declarations
/-!
# Searches step by step

A search looks at the module on top of its stack: it passes over one that it visited already, and
otherwise visits it and pushes its dependencies, in whatever order. No search takes more steps than
there are declared dependencies, and one for its start, whatever cycles there are; and when it
cannot go on it answers whether a path leads to its goal.
-/

namespace BuildWarden.ModuleGraph

/-- A search under way: the modules that it visited, and those that it will look at. -/
structure Search where
  visited : List String
  stack : List String

namespace Search

/-- A search before its first step. -/
def start (source : String) : Search :=
  ⟨[], [source]⟩

/-- The answer of a search that has ended: its goal is on top of the stack, or nothing is there. -/
def answer? (goal : String) : Search → Option Bool
  | ⟨_, []⟩ => some false
  | ⟨_, current :: _⟩ => if current = goal then some true else none

end Search

variable {graph : ModuleGraph} {source goal : String} {search next last : Search} {count : Nat}

/-- One step of a search that has not ended. -/
inductive Step (graph : ModuleGraph) (goal : String) : Search → Search → Prop
  | pass {visited rest : List String} {current : String} :
      current ≠ goal → current ∈ visited →
        Step graph goal ⟨visited, current :: rest⟩ ⟨visited, rest⟩
  | visit {visited rest pushed : List String} {current : String} :
      current ≠ goal → current ∉ visited → pushed.Perm (graph.dependencies current) →
        Step graph goal ⟨visited, current :: rest⟩ ⟨current :: visited, pushed ++ rest⟩

/-- So many steps of a search. -/
inductive Steps (graph : ModuleGraph) (goal : String) : Nat → Search → Search → Prop
  | none (search : Search) : Steps graph goal 0 search search
  | more {count : Nat} {search next last : Search} : graph.Step goal search next →
      Steps graph goal count next last → Steps graph goal (count + 1) search last

/-- A search that has not ended can go on. -/
theorem exists_step (pending : search.answer? goal = none) :
    ∃ next, graph.Step goal search next := by
  obtain ⟨visited, stack⟩ := search
  cases stack with
  | nil => cases pending
  | cons current rest =>
      have other : current ≠ goal := fun same => by simp [Search.answer?, same] at pending
      by_cases seen : current ∈ visited
      · exact ⟨_, .pass other seen⟩
      · exact ⟨_, .visit other seen (.refl _)⟩

/-- The search for a goal is one of these: it ends with what it finds. -/
theorem exists_steps_finds (graph : ModuleGraph) (goal : String) (visited stack : List String) :
    ∃ count last, graph.Steps goal count ⟨visited, stack⟩ last ∧
      last.answer? goal = some (graph.finds goal visited stack) := by
  fun_induction finds graph goal visited stack with
  | case1 visited => exact ⟨0, _, .none _, rfl⟩
  | case2 visited rest => exact ⟨0, _, .none _, if_pos rfl⟩
  | case3 visited current rest other seen ih =>
      obtain ⟨count, last, steps, answers⟩ := ih
      exact ⟨count + 1, last, .more (.pass other (by simpa using seen)) steps, answers⟩
  | case4 visited current rest other new bare ih =>
      obtain ⟨count, last, steps, answers⟩ := ih
      have pushes : ([] : List String).Perm (graph.dependencies current) := by rw [bare]
      exact ⟨count + 1, last, .more (.visit other (by simpa using new) pushes) steps, answers⟩
  | case5 visited current rest other new _ ih =>
      obtain ⟨count, last, steps, answers⟩ := ih
      exact ⟨count + 1, last, .more (.visit other (by simpa using new) (.refl _)) steps, answers⟩

/-! ### The end of a search -/

/-- Every declared dependency with its module, by module and then as declared. -/
def occurrences (graph : ModuleGraph) : List (String × String) :=
  graph.modules.flatMap fun (module, dependencies) => dependencies.map (module, ·)

/-- What a search may still look at: its stack, and the dependencies of what it did not visit. -/
def ahead (graph : ModuleGraph) (search : Search) : Nat :=
  search.stack.length + graph.occurrences.countP fun entry => !search.visited.contains entry.1

private theorem length_dependencies_le (graph : ModuleGraph) (module : String) :
    (graph.dependencies module).length ≤ graph.occurrences.countP (·.1 == module) := by
  cases declared : graph.dependencies module with
  | nil => exact Nat.zero_le _
  | cons first others =>
      have declares : graph.Declares module first := by simp [Declares, declared]
      obtain ⟨front, back, split⟩ := List.append_of_mem declares.mem_modules
      have own : ((graph.dependencies module).map (module, ·)).countP (·.1 == module) =
          (graph.dependencies module).length := by
        rw [List.countP_map, List.countP_eq_length]
        simp
      rw [occurrences, split, List.flatMap_append, List.flatMap_cons, List.countP_append,
        List.countP_append, own, declared]
      omega

/-- Visiting a module takes its dependencies out of what is ahead. -/
theorem countP_unvisited {visited : List String} {current : String} (new : current ∉ visited)
    (entries : List (String × String)) :
    entries.countP (fun entry => !visited.contains entry.1) =
      entries.countP (fun entry => !(current :: visited).contains entry.1) +
        entries.countP (·.1 == current) := by
  induction entries with
  | nil => rfl
  | cons entry rest ih =>
      have here : (if (!visited.contains entry.1) = true then 1 else 0) =
          (if (!(current :: visited).contains entry.1) = true then 1 else 0) +
            if (entry.1 == current) = true then 1 else 0 := by
        by_cases same : entry.1 = current
        · simp [same, new]
        · simp [same]
      rw [List.countP_cons, List.countP_cons, List.countP_cons, ih, here]
      omega

/-- **Each step leaves less to look at.** -/
theorem Step.ahead_lt (step : graph.Step goal search next) :
    graph.ahead next < graph.ahead search := by
  cases step with
  | pass other seen =>
      simp only [ahead, List.length_cons]
      omega
  | @visit visited rest pushed current other new pushes =>
      have split := countP_unvisited new graph.occurrences
      have few := graph.length_dependencies_le current
      rw [← pushes.length_eq] at few
      simp only [ahead, List.length_cons, List.length_append]
      omega

private theorem Steps.count_le (steps : graph.Steps goal count search last) :
    count + graph.ahead last ≤ graph.ahead search := by
  induction steps with
  | none search => exact (Nat.zero_add _).le
  | more step _ ih =>
      have less := step.ahead_lt
      omega

/-- **Every search ends**: it takes no more steps than there are declared dependencies, and one. -/
theorem Steps.bounded (steps : graph.Steps goal count (.start source) last) :
    count ≤ graph.occurrences.length + 1 := by
  have few : graph.ahead (.start source) ≤ 1 + graph.occurrences.length :=
    Nat.add_le_add_left List.countP_le_length 1
  have bound := steps.count_le
  omega

/-! ### The answer of a search -/

/-- A search that has lost nothing: what it passed over was explored, and what it will look at can
be reached from where it started. -/
structure Keeps (graph : ModuleGraph) (source goal : String) (search : Search) : Prop where
  explored : graph.Explored goal search.visited search.stack
  led : ∀ name ∈ search.stack, graph.LeadsTo source name
  covers : source ∈ search.visited ∨ source ∈ search.stack

private theorem keeps_start (graph : ModuleGraph) (source goal : String) :
    graph.Keeps source goal (.start source) where
  explored := fun _ none => by cases none
  led := by
    intro name member
    obtain rfl := List.mem_singleton.mp member
    exact .refl
  covers := .inr (List.mem_singleton_self source)

private theorem Step.keeps (step : graph.Step goal search next)
    (kept : graph.Keeps source goal search) :
    graph.Keeps source goal next := by
  obtain ⟨explored, led, covers⟩ := kept
  cases step with
  | @pass visited rest current other seen =>
      refine ⟨explored.pass seen, fun name member => led name (List.mem_cons_of_mem _ member), ?_⟩
      rcases covers with inside | waits
      · exact .inl inside
      · rcases List.mem_cons.mp waits with rfl | waits
        · exact .inl seen
        · exact .inr waits
  | @visit visited rest pushed current other new pushes =>
      have sameStack : graph.dependencies current ++ rest ⊆ pushed ++ rest :=
        (pushes.symm.append_right rest).subset
      refine ⟨(explored.visit other).mono sameStack, fun name member => ?_, ?_⟩
      · rcases List.mem_append.mp member with declared | waits
        · exact (led current List.mem_cons_self).tail (pushes.mem_iff.mp declared)
        · exact led name (List.mem_cons_of_mem _ waits)
      · rcases covers with inside | waits
        · exact .inl (List.mem_cons_of_mem _ inside)
        · rcases List.mem_cons.mp waits with rfl | waits
          · exact .inl List.mem_cons_self
          · exact .inr (List.mem_append_right _ waits)

private theorem Steps.keeps (steps : graph.Steps goal count search last)
    (kept : graph.Keeps source goal search) : graph.Keeps source goal last := by
  induction steps with
  | none search => exact kept
  | more step _ ih => exact ih (step.keeps kept)

/-- A search that has lost nothing answers whether a path leads to its goal. -/
theorem Keeps.answer?_eq {answer : Bool} (kept : graph.Keeps source goal search)
    (ended : search.answer? goal = some answer) :
    answer = true ↔ graph.LeadsTo source goal := by
  obtain ⟨explored, led, covers⟩ := kept
  obtain ⟨visited, stack⟩ := search
  cases stack with
  | nil =>
      obtain rfl : false = answer := Option.some.inj ended
      have nowhere : ¬graph.LeadsTo source goal := explored.not_leadsTo (by simpa using covers)
      simp [nowhere]
  | cons current rest =>
      by_cases found : current = goal
      · simp only [Search.answer?, found, ↓reduceIte, Option.some.injEq] at ended
        have leads := led current List.mem_cons_self
        rw [found] at leads
        simp [← ended, leads]
      · simp [Search.answer?, found] at ended

/-- **Whatever way a search goes, it ends with the same answer.** After some steps it can go on, or
it has ended and answers whether a path leads to its goal. -/
theorem Steps.exists_step_or_answer (steps : graph.Steps goal count (.start source) last) :
    (∃ next, graph.Step goal last next) ∨
      last.answer? goal = some (graph.reaches source goal) := by
  cases ended : last.answer? goal with
  | none => exact .inl (exists_step ended)
  | some answer =>
      have decides := (steps.keeps (graph.keeps_start source goal)).answer?_eq ended
      rw [← reaches_iff, ← Bool.eq_iff_iff] at decides
      exact .inr (congrArg some decides)

end BuildWarden.ModuleGraph
