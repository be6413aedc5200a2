import BuildWarden.Proofs.Graph.Search
/-!
# The report of what is redundant

A declared dependency is implied if another dependency of its module leads to it. The report lists
what is implied and nothing else: each occurrence once, by module and then as declared, with the
first of the other dependencies through which it is there anyway.
-/

namespace BuildWarden.ModuleGraph

variable {graph : ModuleGraph} {module dependency : String}

/-- Whether a path leads from one module to another can be computed. -/
instance (graph : ModuleGraph) : DecidableRel graph.LeadsTo := fun source goal =>
  decidable_of_iff (graph.reaches source goal = true) reaches_iff

/-- A module of another name that leads to the dependency. -/
def IsDetour (graph : ModuleGraph) (dependency other : String) : Prop :=
  other ≠ dependency ∧ graph.LeadsTo other dependency

instance (graph : ModuleGraph) (dependency : String) :
    DecidablePred (graph.IsDetour dependency) := fun other =>
  inferInstanceAs (Decidable (other ≠ dependency ∧ graph.LeadsTo other dependency))

/-- One of the dependencies of the module leads to another one. -/
def Implied (graph : ModuleGraph) (module dependency : String) : Prop :=
  ∃ other ∈ graph.dependencies module, graph.IsDetour dependency other

instance (graph : ModuleGraph) (module dependency : String) :
    Decidable (graph.Implied module dependency) :=
  inferInstanceAs (Decidable (∃ other ∈ graph.dependencies module, graph.IsDetour dependency other))

/-! ### What is listed -/

/-- What the report lists: a declared dependency with the first other one that leads to it. -/
theorem mem_redundancies {found : Redundancy} : found ∈ graph.redundancies ↔
    ∃ dependencies, (found.module, dependencies) ∈ graph.modules ∧
      found.dependency ∈ dependencies ∧
      graph.via? dependencies found.dependency = some found.via := by
  obtain ⟨module, dependency, via⟩ := found
  unfold redundancies
  simp only [List.mem_flatMap, List.mem_filterMap, Option.map_eq_some_iff, Redundancy.mk.injEq]
  constructor
  · rintro ⟨⟨name, dependencies⟩, declared, other, listed, first, known, rfl, rfl, rfl⟩
    exact ⟨dependencies, declared, listed, known⟩
  · rintro ⟨dependencies, declared, listed, known⟩
    exact ⟨(module, dependencies), declared, dependency, listed, via, known, rfl, rfl, rfl⟩

private theorem isDetour_iff {other : String} :
    (other != dependency && graph.reaches other dependency) = true ↔
      graph.IsDetour dependency other := by
  rw [Bool.and_eq_true, bne_iff_ne, reaches_iff, IsDetour]

private theorem isSome_via? : (graph.via? (graph.dependencies module) dependency).isSome =
    decide (graph.Implied module dependency) := by
  rw [Bool.eq_iff_iff, via?, List.find?_isSome, decide_eq_true_iff, Implied]
  simp only [isDetour_iff]

/-- Through what a dependency is there is of no account for whether it is listed. -/
theorem map_filterMap_redundancy (found : String → Option String) (listed : List String) :
    (listed.filterMap fun dependency =>
        (found dependency).map fun via => (⟨module, dependency, via⟩ : Redundancy)).map
          (fun redundancy => (redundancy.module, redundancy.dependency)) =
      (listed.map (module, ·)).filter fun entry => (found entry.2).isSome := by
  induction listed with
  | nil => rfl
  | cons dependency rest ih =>
      cases here : found dependency with
      | none => simpa [here] using ih
      | some via => simpa [here] using ih

section Formed
variable (formed : graph.Formed)
include formed

/-- **Each occurrence of what is implied is listed**, and nothing else. -/
theorem Formed.map_redundancies :
    (graph.redundancies.map fun found => (found.module, found.dependency)) =
      graph.occurrences.filter fun entry => graph.Implied entry.1 entry.2 := by
  unfold redundancies occurrences
  rw [List.map_flatMap, List.filter_flatMap]
  refine List.flatMap_congr fun entry member => ?_
  obtain ⟨module, dependencies⟩ := entry
  obtain rfl := formed.dependencies_eq member
  rw [map_filterMap_redundancy]
  refine List.filter_congr fun pair listed => ?_
  obtain ⟨dependency, -, rfl⟩ := List.mem_map.mp listed
  exact isSome_via?

/-- Modules come in increasing order. -/
theorem Formed.occurrences_sorted : (graph.occurrences.map Prod.fst).Pairwise (· ≤ ·) := by
  unfold occurrences
  rw [List.map_flatMap, List.pairwise_flatMap]
  refine ⟨fun entry _ => ?_, ?_⟩
  · simp only [List.map_map, Function.comp_def, List.map_const', List.pairwise_replicate]
    exact .inr le_rfl
  · refine (List.pairwise_map.mp formed).imp ?_
    intro entry later before name member other memberOther
    simp only [List.map_map, Function.comp_def, List.mem_map] at member memberOther
    obtain ⟨-, -, rfl⟩ := member
    obtain ⟨-, -, rfl⟩ := memberOther
    exact before.le

/-- **The first detour is named.** -/
theorem Formed.first_via {found : Redundancy} (listed : found ∈ graph.redundancies) :
    ∃ front back, graph.dependencies found.module = front ++ found.via :: back ∧
      graph.IsDetour found.dependency found.via ∧
      ∀ other ∈ front, ¬graph.IsDetour found.dependency other := by
  obtain ⟨dependencies, member, -, known⟩ := mem_redundancies.mp listed
  obtain rfl := formed.dependencies_eq member
  obtain ⟨detour, front, back, split, earlier⟩ := List.find?_eq_some_iff_append.mp known
  refine ⟨front, back, split, isDetour_iff.mp detour, fun other before => ?_⟩
  have none := earlier other before
  rw [← isDetour_iff]
  simpa only [Bool.not_eq_true, Bool.not_eq_true'] using none

/-- **Searches and the report are exact on every graph.** A search ends, and however it pushes the
dependencies of a module, it takes no more steps than there are declared dependencies, and one;
where it cannot go on it answers whether a path of declared dependencies leads to its goal. And the
report lists, by module and then as declared, each occurrence of a dependency to which another one
of its module leads, with the first one that does. -/
theorem searches_and_report_exact :
    (∀ source goal,
      (∃ count last, graph.Steps goal count (.start source) last ∧
        last.answer? goal = some (graph.reaches source goal)) ∧
      (∀ count search, graph.Steps goal count (.start source) search →
        count ≤ graph.occurrences.length + 1 ∧
          ((∃ next, graph.Step goal search next) ∨
            search.answer? goal = some (graph.reaches source goal))) ∧
      (graph.reaches source goal = true ↔ graph.LeadsTo source goal)) ∧
      (graph.redundancies.map fun found => (found.module, found.dependency)) =
        (graph.occurrences.filter fun entry => graph.Implied entry.1 entry.2) ∧
      (graph.occurrences.map Prod.fst).Pairwise (· ≤ ·) ∧
      ∀ found ∈ graph.redundancies, ∃ front back,
        graph.dependencies found.module = front ++ found.via :: back ∧
          graph.IsDetour found.dependency found.via ∧
          ∀ other ∈ front, ¬graph.IsDetour found.dependency other := by
  refine ⟨fun source goal => ⟨?_, fun count search steps => ?_, reaches_iff⟩,
    formed.map_redundancies, formed.occurrences_sorted, fun found => formed.first_via⟩
  · exact exists_steps_finds graph goal [] [source]
  · exact ⟨steps.bounded, steps.exists_step_or_answer⟩

end Formed

/-- A module that names itself, a dependency that is listed twice, and one that is declared nowhere:
`B` leads to `A` itself, so its dependency on `A` is listed with `B`. -/
theorem searches_and_report_exact_on_cycle :
    let graph := ofList [("B", ["A", "X", "B"]), ("A", ["B", "C", "C"])]
    graph.Formed ∧ graph.LeadsTo "A" "X" ∧ ¬graph.LeadsTo "C" "A" ∧
      graph.redundancies = [⟨"A", "C", "B"⟩, ⟨"A", "C", "B"⟩, ⟨"B", "A", "B"⟩, ⟨"B", "X", "A"⟩,
        ⟨"B", "B", "A"⟩] ∧
      (graph.redundancies.map fun found => (found.module, found.dependency)) =
        graph.occurrences.filter fun entry => graph.Implied entry.1 entry.2 := by
  intro graph
  have formed : graph.Formed := formed_ofList _
  have sorted : graph = ⟨[("A", ["B", "C", "C"]), ("B", ["A", "X", "B"])]⟩ := by decide
  obtain ⟨searches, report, -, -⟩ := searches_and_report_exact formed
  refine ⟨formed, (searches "A" "X").2.2.mp ?_, (searches "C" "A").2.2.not.mp ?_, ?_, report⟩
  · simp [sorted, reaches, finds, dependencies, List.lookup_cons]
  · simp [sorted, reaches, finds, dependencies, List.lookup_cons]
  · simp [sorted, redundancies, via?, reaches, finds, dependencies, List.lookup_cons]

end BuildWarden.ModuleGraph
