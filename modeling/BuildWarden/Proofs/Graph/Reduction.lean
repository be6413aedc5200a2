import BuildWarden.Proofs.Graph.Report
import Mathlib.Data.Finset.Card
import Mathlib.Data.Finset.Dedup
/-!
# Reduced graphs

A dependency is redundant if another dependency of the same module leads to it. Without cycles
everything that is redundant can be dropped at once: what leads where stays the same, nothing is
redundant any more, and no further dependency can be dropped. What makes a dependency redundant may
be redundant as well, so the argument climbs from a dropped dependency to one that stays.
-/

namespace BuildWarden.ModuleGraph

open Relation (TransGen ReflTransGen)

variable {graph : ModuleGraph} {module dependency source goal : String}

/-- The dependency is listed as one that adds nothing to its module. -/
def isRedundant (graph : ModuleGraph) (module dependency : String) : Bool :=
  graph.redundancies.any fun found => found.module == module && found.dependency == dependency

/-- The graph without all that is redundant in it. -/
def reduced (graph : ModuleGraph) : ModuleGraph :=
  graph.without graph.isRedundant

/-- The graph without one dependency of one module. -/
def forgetting (graph : ModuleGraph) (module dependency : String) : ModuleGraph :=
  graph.without fun name other => name == module && other == dependency

/-- No module leads to itself through one or more dependencies. -/
def Acyclic (graph : ModuleGraph) : Prop :=
  ∀ module, ¬TransGen graph.Declares module module

/-- Heights that go down along the dependencies rule out cycles. -/
theorem acyclic_of_height (height : String → Nat)
    (lower : ∀ module dependency, graph.Declares module dependency →
      height dependency < height module) : graph.Acyclic := by
  intro module cycle
  have down : ∀ goal, TransGen graph.Declares module goal → height goal < height module := by
    intro goal path
    induction path with
    | single declared => exact lower _ _ declared
    | tail _ declared ih => exact (lower _ _ declared).trans ih
  exact lt_irrefl _ (down module cycle)

/-! ### What is redundant -/

/-- A dependency is redundant if and only if another one of the module leads to it. -/
theorem Formed.isRedundant_iff (formed : graph.Formed) :
    graph.isRedundant module dependency = true ↔
      graph.Declares module dependency ∧
        ∃ other, graph.Declares module other ∧ other ≠ dependency ∧
          graph.LeadsTo other dependency := by
  simp only [isRedundant, List.any_eq_true, Bool.and_eq_true, beq_iff_eq, mem_redundancies]
  constructor
  · rintro ⟨⟨_, _, via⟩, ⟨dependencies, declared, listed, known⟩, rfl, rfl⟩
    rw [← formed.dependencies_eq declared] at listed known
    have leads := List.find?_some known
    simp only [Bool.and_eq_true, bne_iff_ne, reaches_iff] at leads
    exact ⟨listed, via, List.mem_of_find?_eq_some known, leads.1, leads.2⟩
  · rintro ⟨declared, other, listed, different, leads⟩
    have some : (graph.via? (graph.dependencies module) dependency).isSome := by
      refine List.find?_isSome.mpr ⟨other, listed, ?_⟩
      simp [different, reaches_iff.mpr leads]
    obtain ⟨via, known⟩ := Option.isSome_iff_exists.mp some
    exact ⟨⟨module, dependency, via⟩, ⟨_, declared.mem_modules, declared, known⟩, rfl, rfl⟩

/-- What is redundant is listed. -/
theorem redundancies_eq_nil
    (none : ∀ module dependency, graph.isRedundant module dependency = false) :
    graph.redundancies = [] := by
  rw [List.eq_nil_iff_forall_not_mem]
  intro found listed
  have redundant : graph.isRedundant found.module found.dependency = true :=
    List.any_eq_true.mpr ⟨found, listed, by simp⟩
  rw [none] at redundant
  cases redundant

/-! ### Ranks -/

/-- The declared modules that a module leads to; it is one of them if it is declared. -/
def reached (graph : ModuleGraph) (module : String) : Finset String :=
  (graph.modules.map Prod.fst).toFinset.filter fun name => graph.reaches module name

/-- How many declared modules a module leads to. -/
def rank (graph : ModuleGraph) (module : String) : Nat :=
  (graph.reached module).card

private theorem mem_reached :
    goal ∈ graph.reached source ↔
      goal ∈ graph.modules.map Prod.fst ∧ graph.LeadsTo source goal := by
  rw [reached, Finset.mem_filter, List.mem_toFinset, reaches_iff]

private theorem LeadsTo.reached_subset (leads : graph.LeadsTo source goal) :
    graph.reached goal ⊆ graph.reached source := by
  intro name member
  obtain ⟨declared, further⟩ := mem_reached.mp member
  exact mem_reached.mpr ⟨declared, leads.trans further⟩

private theorem LeadsTo.rank_le (leads : graph.LeadsTo source goal) :
    graph.rank goal ≤ graph.rank source :=
  Finset.card_le_card leads.reached_subset

/-- Without cycles a module leads to fewer modules than those that lead to it. -/
theorem Acyclic.rank_lt (acyclic : graph.Acyclic) (below : TransGen graph.Declares source goal) :
    graph.rank goal < graph.rank source := by
  obtain ⟨next, declared, -⟩ := TransGen.head'_iff.mp below
  have itself : source ∈ graph.reached source :=
    mem_reached.mpr ⟨List.mem_map_of_mem declared.mem_modules, .refl⟩
  have notBack : source ∉ graph.reached goal := fun back =>
    acyclic source (below.trans_left (mem_reached.mp back).2)
  refine Finset.card_lt_card ((Finset.ssubset_iff_of_subset ?_).mpr ⟨source, itself, notBack⟩)
  exact LeadsTo.reached_subset below.to_reflTransGen

/-! ### Paths that stay -/

/-- A path stays if all dependencies do that it may use. -/
theorem LeadsTo.reduced (leads : graph.LeadsTo source goal)
    (stays : ∀ module dependency, graph.rank module ≤ graph.rank source →
      graph.Declares module dependency → graph.reduced.LeadsTo module dependency) :
    graph.reduced.LeadsTo source goal := by
  induction leads using ReflTransGen.head_induction_on with
  | refl => exact .refl
  | head declared _ ih =>
      refine (stays _ _ le_rfl declared).trans (ih fun module dependency lower => ?_)
      exact stays module dependency (lower.trans (LeadsTo.rank_le (.single declared)))

/-- A module leads to each of its dependencies in the reduced graph. The induction goes up in the
ranks of modules, and for one module down in the ranks of its dependencies: what makes a dependency
redundant is a dependency of higher rank, and leads to it from modules of lower rank. -/
theorem Acyclic.leadsTo_reduced (acyclic : graph.Acyclic) (formed : graph.Formed)
    (declared : graph.Declares module dependency) :
    graph.reduced.LeadsTo module dependency := by
  induction height : graph.rank module using Nat.strong_induction_on
    generalizing module dependency with
  | _ height modules =>
  subst height
  induction gap : graph.rank module - graph.rank dependency using Nat.strong_induction_on
    generalizing dependency with
  | _ gap dependencies =>
  by_cases redundant : graph.isRedundant module dependency = true
  · obtain ⟨-, other, beside, different, leads⟩ := formed.isRedundant_iff.mp redundant
    have below : TransGen graph.Declares other dependency :=
      (Relation.reflTransGen_iff_eq_or_transGen.mp leads).resolve_left different.symm
    have lower := acyclic.rank_lt below
    have lowest := acyclic.rank_lt (.single beside)
    have toOther : graph.reduced.LeadsTo module other :=
      dependencies _ (by omega) beside rfl
    have onward : graph.reduced.LeadsTo other dependency :=
      leads.reduced fun name next inside edge => modules _ (by omega) edge rfl
    exact toOther.trans onward
  · exact .single (declares_without.mpr ⟨declared, Bool.eq_false_iff.mpr redundant⟩)

/-! ### The reduction -/

/-- Two graphs agree on a search exactly if they agree on the path. -/
theorem reaches_eq_iff {other : ModuleGraph} :
    graph.reaches source goal = other.reaches source goal ↔
      (graph.LeadsTo source goal ↔ other.LeadsTo source goal) := by
  rw [← reaches_iff, ← reaches_iff, Bool.eq_iff_iff]

private theorem Formed.redundancies_reduced (formed : graph.Formed) : graph.reduced.redundancies =
    [] := by
  refine redundancies_eq_nil fun module dependency => ?_
  rw [Bool.eq_false_iff]
  intro redundant
  obtain ⟨declared, other, beside, different, leads⟩ := formed.without.isRedundant_iff.mp redundant
  obtain ⟨listed, stays⟩ := declares_without.mp declared
  have again : graph.isRedundant module dependency = true :=
    formed.isRedundant_iff.mpr
      ⟨listed, other, (declares_without.mp beside).1, different, leads.of_without⟩
  rw [stays] at again
  cases again

/-- A dependency that stays is the only way to get there. -/
theorem Acyclic.not_leadsTo_forgetting (acyclic : graph.Acyclic) (formed : graph.Formed)
    (declared : graph.reduced.Declares module dependency) :
    ¬(graph.reduced.forgetting module dependency).LeadsTo module dependency := by
  intro leads
  obtain ⟨listed, stays⟩ := declares_without.mp declared
  rcases ReflTransGen.cases_head leads with rfl | ⟨other, beside, onward⟩
  · exact acyclic _ (.single listed)
  obtain ⟨beside, kept⟩ := declares_without.mp beside
  have different : other ≠ dependency := by simpa using kept
  have redundant : graph.isRedundant module dependency = true :=
    formed.isRedundant_iff.mpr
      ⟨listed, other, (declares_without.mp beside).1, different,
        LeadsTo.of_without (LeadsTo.of_without onward)⟩
  rw [stays] at redundant
  cases redundant

/-- **The checker computes a transitive reduction** of an acyclic graph. Without all that it lists
what leads where is the same, it lists nothing any more, and no module leads to one of its remaining
dependencies once that is forgotten as well. -/
theorem transitive_reduction (formed : graph.Formed) (acyclic : graph.Acyclic) :
    (∀ source goal, graph.reduced.reaches source goal = graph.reaches source goal) ∧
      graph.reduced.redundancies = [] ∧
      ∀ module, ∀ dependency ∈ graph.reduced.dependencies module,
        (graph.reduced.forgetting module dependency).reaches module dependency = false := by
  refine ⟨fun source goal => ?_, formed.redundancies_reduced, fun module dependency declared => ?_⟩
  · refine reaches_eq_iff.mpr ⟨LeadsTo.of_without, fun leads => ?_⟩
    exact leads.reduced fun module dependency _ declared => acyclic.leadsTo_reduced formed declared
  · rw [Bool.eq_false_iff, Ne, reaches_iff]
    exact acyclic.not_leadsTo_forgetting formed declared

/-- Through `GRAPHS` the base is redundant for `LEARNING`, and `GRAPHS` itself is through `BN`: all
of it is dropped at once, and `LEARNING` leads to the base as before. -/
theorem transitive_reduction_of_learning :
    let graph := ofList [("LEARNING", ["BASE", "GRAPHS", "BN", "BASE", "EXTRA"]),
      ("BN", ["GRAPHS", "BASE"]), ("GRAPHS", ["BASE"]), ("BASE", [])]
    graph.Formed ∧ graph.Acyclic ∧
      graph.redundancies = [⟨"BN", "BASE", "GRAPHS"⟩, ⟨"LEARNING", "BASE", "GRAPHS"⟩,
        ⟨"LEARNING", "GRAPHS", "BN"⟩, ⟨"LEARNING", "BASE", "GRAPHS"⟩] ∧
      graph.reduced = ofList [("LEARNING", ["BN", "EXTRA"]), ("BN", ["GRAPHS"]),
        ("GRAPHS", ["BASE"]), ("BASE", [])] ∧
      graph.reduced.reaches "LEARNING" "BASE" = graph.reaches "LEARNING" "BASE" ∧
      graph.reduced.redundancies = [] ∧
      (graph.reduced.forgetting "LEARNING" "BN").reaches "LEARNING" "BN" = false := by
  intro graph
  have formed : graph.Formed := formed_ofList _
  have acyclic : graph.Acyclic := by
    let height (name : String) : Nat :=
      (["BASE", "GRAPHS", "BN", "LEARNING"].idxOf? name).getD 0
    have lower : ∀ entry ∈ graph.modules, ∀ other ∈ entry.2, height other < height entry.1 := by
      decide +kernel
    exact acyclic_of_height height fun _ dependency declared =>
      lower _ declared.mem_modules dependency declared
  have sorted : graph = ⟨[("BASE", []), ("BN", ["GRAPHS", "BASE"]), ("GRAPHS", ["BASE"]),
      ("LEARNING", ["BASE", "GRAPHS", "BN", "BASE", "EXTRA"])]⟩ := by
    decide
  have reported : graph.redundancies = [⟨"BN", "BASE", "GRAPHS"⟩, ⟨"LEARNING", "BASE", "GRAPHS"⟩,
      ⟨"LEARNING", "GRAPHS", "BN"⟩, ⟨"LEARNING", "BASE", "GRAPHS"⟩] := by
    simp [sorted, redundancies, via?, reaches, finds, dependencies, List.lookup_cons]
  have reduced : graph.reduced = ofList [("LEARNING", ["BN", "EXTRA"]), ("BN", ["GRAPHS"]),
      ("GRAPHS", ["BASE"]), ("BASE", [])] := by
    have dropped : graph.isRedundant = fun module dependency =>
        graph.redundancies.any fun found =>
          found.module == module && found.dependency == dependency := rfl
    rw [ModuleGraph.reduced, dropped, reported]
    decide
  obtain ⟨same, nothing, least⟩ := transitive_reduction formed acyclic
  refine ⟨formed, acyclic, reported, reduced, same _ _, nothing, least _ _ ?_⟩
  rw [reduced]
  decide +kernel

end BuildWarden.ModuleGraph
