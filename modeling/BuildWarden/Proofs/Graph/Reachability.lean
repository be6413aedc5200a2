import BuildWarden.Guideline.ModuleGraph
import Mathlib.Logic.Relation
/-!
# Paths of dependencies

The search for a module follows declared dependencies and passes over what it visited already. It
finds a module if and only if a path of declared dependencies leads there, whatever cycles there
are.
-/

namespace BuildWarden.ModuleGraph
variable {graph : ModuleGraph} {source goal : String} {visited stack : List String}

/-- The module declares the dependency. -/
def Declares (graph : ModuleGraph) (module dependency : String) : Prop :=
  dependency ∈ graph.dependencies module

/-- A path of declared dependencies leads from one module to the other; it may be empty. -/
def LeadsTo (graph : ModuleGraph) : String → String → Prop :=
  Relation.ReflTransGen graph.Declares

/-- Why a search may pass over what it visited: the goal is not there, and what it leads to is
visited as well or still on the stack. -/
def Explored (graph : ModuleGraph) (goal : String) (visited stack : List String) : Prop :=
  ∀ name ∈ visited, name ≠ goal ∧
    ∀ next, graph.Declares name next → next ∈ visited ∨ next ∈ stack

/-- What a search finds is led to from its stack. -/
theorem exists_leadsTo_of_finds (found : graph.finds goal visited stack = true) :
    ∃ start ∈ stack, graph.LeadsTo start goal := by
  fun_induction finds graph goal visited stack with
  | case1 => cases found
  | case2 visited rest => exact ⟨goal, List.mem_cons_self, .refl⟩
  | case3 visited current rest _ _ ih =>
      obtain ⟨start, member, leads⟩ := ih found
      exact ⟨start, List.mem_cons_of_mem current member, leads⟩
  | case4 visited current rest _ _ _ ih =>
      obtain ⟨start, member, leads⟩ := ih found
      exact ⟨start, List.mem_cons_of_mem current member, leads⟩
  | case5 visited current rest _ _ _ ih =>
      obtain ⟨start, member, leads⟩ := ih found
      rcases List.mem_append.mp member with next | member
      · exact ⟨current, List.mem_cons_self, .head next leads⟩
      · exact ⟨start, List.mem_cons_of_mem current member, leads⟩

section Explored
variable {current : String} {rest : List String}

/-- What is on a stack may stand on it in another order, and more may stand there. -/
theorem Explored.mono {wider : List String} (explored : graph.Explored goal visited stack)
    (more : stack ⊆ wider) : graph.Explored goal visited wider := by
  intro name member
  obtain ⟨other, covered⟩ := explored name member
  exact ⟨other, fun next declared => (covered next declared).imp_right fun waits => more waits⟩

/-- A module that was visited already may be dropped from the stack. -/
theorem Explored.pass (explored : graph.Explored goal visited (current :: rest))
    (seen : current ∈ visited) : graph.Explored goal visited rest := by
  intro name member
  obtain ⟨other, covered⟩ := explored name member
  refine ⟨other, fun next declared => ?_⟩
  rcases covered next declared with inside | waiting
  · exact .inl inside
  · rcases List.mem_cons.mp waiting with rfl | waiting
    · exact .inl seen
    · exact .inr waiting

/-- Visiting the module on top of the stack, which is not the goal, puts its dependencies there. -/
theorem Explored.visit (explored : graph.Explored goal visited (current :: rest))
    (other : current ≠ goal) :
    graph.Explored goal (current :: visited) (graph.dependencies current ++ rest) := by
  intro name member
  rcases List.mem_cons.mp member with rfl | member
  · exact ⟨other, fun next declared => .inr (List.mem_append_left rest declared)⟩
  · obtain ⟨different, covered⟩ := explored name member
    refine ⟨different, fun next declared => ?_⟩
    rcases covered next declared with inside | waiting
    · exact .inl (List.mem_cons_of_mem current inside)
    · rcases List.mem_cons.mp waiting with rfl | waiting
      · exact .inl List.mem_cons_self
      · exact .inr (List.mem_append_right _ waiting)

/-- Modules that were visited lead only to such modules, once nothing waits. -/
theorem Explored.not_leadsTo (explored : graph.Explored goal visited []) {start : String}
    (member : start ∈ visited) : ¬graph.LeadsTo start goal := by
  intro leads
  have stays : goal ∈ visited := by
    induction leads using Relation.ReflTransGen.head_induction_on with
    | refl => exact member
    | head declared _ ih => exact ih (by simpa using (explored _ member).2 _ declared)
  exact (explored goal stays).1 rfl

end Explored

/-- A search that finds nothing has explored all that its stack leads to. -/
theorem not_leadsTo_of_finds (explored : graph.Explored goal visited stack)
    (missed : graph.finds goal visited stack = false) {start : String}
    (known : start ∈ visited ∨ start ∈ stack) : ¬graph.LeadsTo start goal := by
  fun_induction finds graph goal visited stack with
  | case1 visited => exact explored.not_leadsTo (by simpa using known)
  | case2 => cases missed
  | case3 visited current rest _ seen ih =>
      have member : current ∈ visited := by simpa using seen
      exact ih (explored.pass member) missed (by grind)
  | case4 visited current rest other _ bare ih =>
      have visit := explored.visit other
      rw [bare, List.nil_append] at visit
      exact ih visit missed (by grind)
  | case5 visited current rest other _ _ ih =>
      exact ih (explored.visit other) missed (by grind)

/-- **The search is exact**: it finds the goal if and only if a path of declared dependencies leads
there. -/
theorem reaches_iff : graph.reaches source goal = true ↔ graph.LeadsTo source goal := by
  constructor
  · intro found
    obtain ⟨start, member, leads⟩ := exists_leadsTo_of_finds found
    obtain rfl := List.mem_singleton.mp member
    exact leads
  · intro leads
    rw [← Bool.not_eq_false]
    intro missed
    have explored : graph.Explored goal [] [source] := fun _ none => by cases none
    exact not_leadsTo_of_finds explored missed (by simp) leads

end BuildWarden.ModuleGraph
