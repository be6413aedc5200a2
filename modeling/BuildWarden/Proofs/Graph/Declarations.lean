import BuildWarden.Proofs.Build.ModuleSet
import BuildWarden.Proofs.Graph.Reachability
/-!
# Declarations

A graph holds its modules in increasing order and each of them once, so what it lists for a module
is what the module depends on. Dropping dependencies keeps this.
-/

namespace BuildWarden.ModuleGraph

variable {graph : ModuleGraph} {module dependency : String} {dependencies : List String}

/-- The modules are declared in increasing order, each of them once. -/
def Formed (graph : ModuleGraph) : Prop :=
  (graph.modules.map Prod.fst).Pairwise (· < ·)

/-- A declaration puts the name of its module where a set of names has it. -/
theorem map_declare (name : String) (dependencies : List String)
    (modules : List (String × List String)) :
    (declare name dependencies modules).map Prod.fst =
      ModuleSet.insertName name (modules.map Prod.fst) := by
  induction modules with
  | nil => rfl
  | cons entry rest ih =>
      obtain ⟨first, others⟩ := entry
      rw [declare, List.map_cons, ModuleSet.insertName]
      split
      · rfl
      split
      next same => rw [List.map_cons, same]
      next => rw [List.map_cons, ih]

/-- Every graph of declarations is formed. -/
theorem formed_ofList (declarations : List (String × List String)) :
    (ofList declarations).Formed := by
  unfold ofList Formed
  refine List.foldlRecOn
    (motive := fun modules : List (String × List String) =>
      (modules.map Prod.fst).Pairwise (· < ·))
    declarations _ .nil fun modules increasing entry _ => ?_
  rw [map_declare]
  exact ModuleSet.pairwise_insertName entry.1 increasing

/-- What a module declares is declared somewhere. -/
theorem Declares.mem_modules (declares : graph.Declares module dependency) :
    (module, graph.dependencies module) ∈ graph.modules := by
  unfold Declares ModuleGraph.dependencies at declares
  unfold ModuleGraph.dependencies
  cases found : graph.modules.lookup module with
  | none => simp [found] at declares
  | some others =>
      obtain ⟨front, back, split, -⟩ := List.lookup_eq_some_iff.mp found
      simp [split]

/-- A module depends on what is declared for it. -/
theorem Formed.dependencies_eq (formed : graph.Formed)
    (member : (module, dependencies) ∈ graph.modules) :
    graph.dependencies module = dependencies := by
  obtain ⟨front, back, split⟩ := List.append_of_mem member
  have first : graph.modules.lookup module = some dependencies := by
    refine List.lookup_eq_some_iff.mpr ⟨front, back, split, fun entry inside => ?_⟩
    rw [Formed, split, List.map_append, List.pairwise_append] at formed
    have before := formed.2.2 entry.1 (List.mem_map_of_mem inside) module (by simp)
    simpa using before.ne'
  rw [ModuleGraph.dependencies, first, Option.getD_some]

/-! ### Dropping dependencies -/

section Without
variable {dropped : String → String → Bool}

/-- The graph without the dependencies that are `dropped`, each with all its occurrences. -/
def without (graph : ModuleGraph) (dropped : String → String → Bool) : ModuleGraph :=
  ⟨graph.modules.map fun (module, dependencies) =>
    (module, dependencies.filter fun dependency => !dropped module dependency)⟩

/-- A graph stays formed when dependencies are dropped. -/
theorem Formed.without (formed : graph.Formed) : (graph.without dropped).Formed := by
  have names : (graph.without dropped).modules.map Prod.fst = graph.modules.map Prod.fst := by
    simp [ModuleGraph.without]
  rwa [Formed, names]

private theorem dependencies_without : (graph.without dropped).dependencies module =
    (graph.dependencies module).filter fun dependency => !dropped module dependency := by
  unfold ModuleGraph.without ModuleGraph.dependencies
  generalize graph.modules = modules
  induction modules with
  | nil => rfl
  | cons entry rest ih =>
      obtain ⟨first, others⟩ := entry
      rw [List.map_cons, List.lookup_cons, List.lookup_cons]
      by_cases same : (module == first) = true
      · rw [same, eq_of_beq same]
        rfl
      · rw [Bool.eq_false_iff.mpr same]
        exact ih

/-- What is declared when dependencies are dropped: what was declared and is not dropped. -/
theorem declares_without : (graph.without dropped).Declares module dependency ↔
    graph.Declares module dependency ∧ dropped module dependency = false := by
  simp [Declares, dependencies_without]

/-- Without some dependencies no more modules are led to. -/
theorem LeadsTo.of_without {source goal : String}
    (leads : (graph.without dropped).LeadsTo source goal) : graph.LeadsTo source goal :=
  Relation.ReflTransGen.mono (fun _ _ declared => (declares_without.mp declared).1) _ _ leads

end Without

end BuildWarden.ModuleGraph
