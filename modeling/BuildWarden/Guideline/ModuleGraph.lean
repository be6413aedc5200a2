import BuildWarden.Text.Search
/-!
# Module graphs

The declared dependencies of modules. A dependency is redundant when another dependency of the same
module leads to it already; `redundancies` lists these in the order of the declarations.
-/

namespace BuildWarden

/-- Modules and their declared dependencies, by name in increasing order. -/
structure ModuleGraph where
  modules : List (String × List String) := []
  deriving DecidableEq, Repr

/-- A dependency that adds nothing, and the one through which it is there anyway. -/
structure Redundancy where
  module : String
  dependency : String
  via : String
  deriving DecidableEq, Repr

namespace ModuleGraph

/-- Declares a module at its place; a later declaration replaces an earlier one. -/
def declare (name : String) (dependencies : List String) :
    List (String × List String) → List (String × List String)
  | [] => [(name, dependencies)]
  | (first, others) :: rest =>
    if name < first then (name, dependencies) :: (first, others) :: rest
    else if name = first then (name, dependencies) :: rest
    else (first, others) :: declare name dependencies rest

/-- The graph of the given declarations. -/
def ofList (declarations : List (String × List String)) : ModuleGraph :=
  ⟨declarations.foldl (fun modules (name, dependencies) => declare name dependencies modules) []⟩

/-- The declared dependencies of a module; none for a module that is not declared. -/
def dependencies (graph : ModuleGraph) (module : String) : List String :=
  (graph.modules.lookup module).getD []

/-- The declared modules that are not among the given names. -/
def unvisited (graph : ModuleGraph) (visited : List String) : Nat :=
  graph.modules.countP fun entry => !visited.contains entry.1

/-- Visiting a module that has dependencies leaves fewer to visit. -/
theorem unvisited_lt (graph : ModuleGraph) {visited : List String} {current : String}
    (new : visited.contains current = false) (declared : graph.dependencies current ≠ []) :
    graph.unvisited (current :: visited) < graph.unvisited visited := by
  unfold unvisited
  unfold dependencies at declared
  generalize graph.modules = modules at *
  induction modules with
  | nil => simp at declared
  | cons entry rest ih =>
    obtain ⟨name, others⟩ := entry
    have weaker : rest.countP (fun entry => !(current :: visited).contains entry.1)
        ≤ rest.countP (fun entry => !visited.contains entry.1) := by
      apply List.countP_mono_left
      intro entry _
      simp only [List.contains_cons, Bool.not_or, Bool.and_eq_true]
      exact And.right
    simp only [List.contains_cons] at weaker
    by_cases same : name = current
    · subst same
      simp only [List.countP_cons, List.contains_cons, beq_self_eq_true, Bool.true_or,
        Bool.not_true, Bool.false_eq_true, ↓reduceIte, new, Bool.not_false]
      omega
    · have other : (current == name) = false := by
        simpa using fun equal => same equal.symm
      rw [List.lookup_cons, other] at declared
      have inside := ih declared
      simp only [List.contains_cons] at inside
      have unequal : (name == current) = false := by simpa using same
      simp only [List.countP_cons, List.contains_cons, unequal, Bool.false_or]
      omega

/-- Whether a search from the names in `stack` finds the goal. -/
def finds (graph : ModuleGraph) (goal : String) (visited : List String) : List String → Bool
  | [] => false
  | current :: rest =>
    if current = goal then true
    else if _new : visited.contains current then graph.finds goal visited rest
    else if _declared : graph.dependencies current = [] then
      graph.finds goal (current :: visited) rest
    else graph.finds goal (current :: visited) (graph.dependencies current ++ rest)
termination_by stack => (graph.unvisited visited, stack.length)
decreasing_by
  · exact Prod.Lex.right _ (by simp)
  · have fewer : graph.unvisited (current :: visited) ≤ graph.unvisited visited := by
      apply List.countP_mono_left
      intro entry _
      simp only [List.contains_cons, Bool.not_or, Bool.and_eq_true]
      exact And.right
    rcases Nat.lt_or_eq_of_le fewer with less | same
    · exact Prod.Lex.left _ _ less
    · rw [same]; exact Prod.Lex.right _ (by simp)
  · exact Prod.Lex.left _ _ (graph.unvisited_lt (by simpa using _new) _declared)

/-- Whether declared dependencies lead from one module to the other; a module leads to itself. -/
def reaches (graph : ModuleGraph) (source goal : String) : Bool :=
  graph.finds goal [] [source]

/-- The first of the dependencies, other than the given one, that leads to it. -/
def via? (graph : ModuleGraph) (dependencies : List String) (dependency : String) :
    Option String :=
  dependencies.find? fun other => other != dependency && graph.reaches other dependency

/-- The dependencies that add nothing, by module and then as declared. -/
def redundancies (graph : ModuleGraph) : List Redundancy :=
  graph.modules.flatMap fun (module, dependencies) =>
    dependencies.filterMap fun dependency =>
      (graph.via? dependencies dependency).map fun via => ⟨module, dependency, via⟩

end ModuleGraph
end BuildWarden
