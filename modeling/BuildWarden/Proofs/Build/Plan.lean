import BuildWarden.Build.Lines
import BuildWarden.Proofs.Tree.Steps
/-!
# What plans consist of

A plan holds the three lines of its record, all of which are checked when they run, and a directory
below the build directory that has the name of the mode.
-/

namespace BuildWarden

/-- The lines of a plan in the order in which they run. -/
def BuildPlan.lines (plan : BuildPlan) : List String :=
  [plan.configure, plan.compile] ++ if plan.post.line.isEmpty then [] else [plan.post.line]

namespace BuildRecord
variable {record : BuildRecord} {context : Context} {plan : BuildPlan}

/-- What a plan consists of. -/
theorem plan_eq_ok (planned : record.plan context = .ok plan) :
    record.configureLine context = .ok plan.configure ∧
      record.compileLine context = .ok plan.compile ∧
      plan.post = record.postLine context ∧ plan.directory = record.directory context := by
  unfold BuildRecord.plan at planned
  cases configured : record.configureLine context with
  | error fault => simp [configured, bind, Except.bind] at planned
  | ok configure =>
      cases compiled : record.compileLine context with
      | error fault => simp [configured, compiled, bind, Except.bind] at planned
      | ok compile =>
          simp only [configured, compiled, bind, Except.bind, pure, Except.pure,
            Except.ok.injEq] at planned
          subst planned
          exact ⟨rfl, rfl, rfl, rfl⟩

/-- A post line that is to run is checked. -/
theorem postLine_checked (some : (record.postLine context).line.isEmpty = false) :
    (record.postLine context).checked = true := by
  unfold postLine at some ⊢
  split at some
  · rfl
  · rfl
  · cases some

/-- Every line of a plan is checked. -/
theorem steps_eq_lines (planned : record.plan context = .ok plan) :
    plan.steps = plan.lines.map (·, true) := by
  obtain ⟨-, -, post, -⟩ := plan_eq_ok planned
  unfold BuildPlan.steps BuildPlan.lines
  rw [post]
  by_cases nothing : (record.postLine context).line.isEmpty = true
  · simp [nothing]
  · simp [nothing, postLine_checked (Bool.eq_false_iff.mpr nothing)]

/-- A mode can name a directory. -/
theorem isName_mode (mode : Mode) : IsName mode.name := by
  cases mode <;> decide

/-- There is always a directory to build in. -/
theorem directory_ne_empty (record : BuildRecord) (context : Context) :
    record.directory context ≠ "" :=
  Disk.ne_empty_of_steps (isName_mode record.mode)
    (Disk.steps_join_name context.layout.buildDir (isName_mode record.mode))

/-- The record of the default options. -/
def usual : BuildRecord where
  action := .lib
  mode := .release
  target := .library
  modules := .parse "ALL"
  compiler := .gcc
  compilerDir := none
  threads := .omp
  jobs := "halfexcept1"
  tests := .quick none
  destination := "/usr/local"
  pythonLibrary := none
  pythonInclude := none
  seed := none
  withSql := false
  staticLib := false
  coverage := false
  profiling := false
  verbose := false
  dryRun := false

example : BuildRecord.ofOptions {} .unix = .ok usual := rfl

end BuildRecord
end BuildWarden
