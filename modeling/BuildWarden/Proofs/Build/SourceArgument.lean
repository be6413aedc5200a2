import BuildWarden.Proofs.Build.Plan
import BuildWarden.Proofs.Tree.Target
/-!
# Where the configure line looks for the project

The configure line names its source by two steps up from the directory it runs in. That directory is
made from the configured build directory, of whatever depth, and the mode. So the two steps lead to
the project exactly when the build directory lies directly in it, as the usual one does; a deeper
build directory sends the configure step somewhere else.
-/

namespace BuildWarden

/-- Going up once leads from a directory to another one exactly when it lies directly in that one,
or when both are the top. -/
theorem dropLast_eq_iff (build root : Location) :
    build.dropLast = root ↔ (∃ name, build = root ++ [name]) ∨ (build = [] ∧ root = []) := by
  rcases List.eq_nil_or_concat build with rfl | ⟨front, last, rfl⟩
  · simp
  · rw [List.concat_eq_append, List.dropLast_concat]
    constructor
    · rintro rfl
      exact .inl ⟨last, rfl⟩
    · rintro (⟨name, same⟩ | ⟨same, -⟩)
      · exact (List.append_inj' same rfl).1
      · simp at same

/-- Names below a directory lead to something that lies directly in it if there is one of them. -/
theorem append_eq_iff (root names : Location) :
    ((∃ name, root ++ names = root ++ [name]) ∨ (root ++ names = [] ∧ root = [])) ↔
      names.length = 1 ∨ (names = [] ∧ root = []) := by
  simp only [List.append_cancel_left_eq, List.append_eq_nil_iff, List.length_eq_one_iff]
  refine or_congr_right ⟨?_, ?_⟩
  · rintro ⟨⟨-, nothing⟩, top⟩
    exact ⟨nothing, top⟩
  · rintro ⟨nothing, top⟩
    exact ⟨⟨top, nothing⟩, top⟩

namespace BuildRecord
variable {record : BuildRecord} {context : Context}

/-- The configure line starts with the tool and its source argument. -/
theorem configureLine_source {line : String}
    (configured : record.configureLine context = .ok line) :
    ∃ rest, line = context.tools.cmake ++ " ../.. " ++ rest := by
  obtain ⟨next, others, head⟩ : ∃ next others, record.configureHead context.tools =
      context.tools.cmake :: "../.." :: next :: others := ⟨_, _, rfl⟩
  unfold configureLine at configured
  cases chosen : record.toolchain context.platform with
  | error fault => simp [chosen, bind, Except.bind] at configured
  | ok toolchain =>
      simp only [chosen, bind, Except.bind, pure, Except.pure, Except.ok.injEq] at configured
      rw [head, Text.joined, List.cons_append, List.cons_append, List.cons_append, List.cons_append,
        List.cons_append, List.cons_append, String.intercalate_cons_cons,
        String.intercalate_cons_cons] at configured
      refine ⟨" ".intercalate (next :: (others ++ toolchain ++ record.configureTail)), ?_⟩
      rw [← configured, show " ../.. " = " " ++ "../.." ++ " " by rfl]
      simp only [String.append_assoc]

/-- The directory of a build lies directly in the build directory. -/
theorem target_directory (here : Location) (record : BuildRecord) (context : Context) :
    Path.target here (record.directory context) =
      Path.target here context.layout.buildDir ++ [record.mode.name] := by
  have spelled := isName_mode record.mode
  rw [directory, Path.target_join here _ (Disk.isAbsolute_of_isName spelled),
    Disk.steps_of_isName spelled, Path.walk_name _ spelled, Path.walk]

private theorem target_source (here : Location) :
    Path.target here "../.." = here.dropLast.dropLast := by
  have steps : Disk.steps "../.." = ["..", ".."] := by decide
  have relative : Path.isAbsolute "../.." = false := by decide
  rw [Path.target, steps, relative]
  simp [Path.walk]

/-- **Where the source argument of the configure line leads**: to the project exactly when the
configured build directory lies directly in it, or when both are the top of the file system. A build
directory that never goes up has to be one name. -/
theorem source_of_plan (record : BuildRecord) (context : Context) {plan : BuildPlan}
    (planned : record.plan context = .ok plan)
    (relative : Path.isAbsolute context.layout.build = false) (here : Location) :
    let root := Path.target here context.layout.root
    let steps := Disk.steps context.layout.build
    let source := Path.target (Path.target here plan.directory) "../.."
    (∃ rest, plan.configure = context.tools.cmake ++ " ../.. " ++ rest) ∧
      (source = root ↔
        (∃ name, Path.walk root steps = root ++ [name]) ∨ (Path.walk root steps = [] ∧ root = [])) ∧
      (".." ∉ steps →
        (source = root ↔
          (steps.filter (· != ".")).length = 1 ∨ (steps.filter (· != ".") = [] ∧ root = []))) := by
  intro root steps source
  obtain ⟨configured, -, -, directory⟩ := plan_eq_ok planned
  have build : Path.target here context.layout.buildDir = Path.walk root steps :=
    Path.target_join here context.layout.root relative
  have lies : source = (Path.walk root steps).dropLast := by
    rw [← build]
    simp only [source, directory, target_source, target_directory, List.dropLast_concat]
  have exact : source = root ↔ (∃ name, Path.walk root steps = root ++ [name]) ∨
      (Path.walk root steps = [] ∧ root = []) := by
    rw [lies, dropLast_eq_iff]
  refine ⟨configureLine_source configured, exact, fun down => ?_⟩
  rw [exact, Path.walk_down root down, append_eq_iff]

/-- The usual build directory has the project two steps above each mode, and a deeper one has
not. -/
theorem source_of_plan_deeper :
    let deeper : Context := { layout := { build := "out/build" } }
    ∃ plan plan', usual.plan {} = .ok plan ∧ usual.plan deeper = .ok plan' ∧
      Path.target (Path.target ["project"] plan.directory) "../.." = ["project"] ∧
      Path.target (Path.target ["project"] plan'.directory) "../.." ≠
        Path.target ["project"] deeper.layout.root := by
  intro deeper
  obtain ⟨plan, planned⟩ : ∃ plan, usual.plan {} = .ok plan := ⟨_, rfl⟩
  obtain ⟨plan', planned'⟩ : ∃ plan, usual.plan deeper = .ok plan := ⟨_, rfl⟩
  refine ⟨plan, plan', planned, planned', ?_, ?_⟩
  · exact ((source_of_plan usual {} planned (by decide) ["project"]).2.2 (by decide)).mpr
      (.inl (by decide))
  · intro found
    have shallow := ((source_of_plan usual deeper planned' (by decide) ["project"]).2.2
      (by decide)).mp found
    revert shallow
    decide

end BuildRecord
end BuildWarden
