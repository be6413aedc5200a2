import BuildWarden.Command.Session
import BuildWarden.Proofs.Build.DryRun
/-!
# What a build would do

A session can tell what a build would do without doing it: a dry run shows the commands, and `show`
writes the directory and the lines. Both go by the plan that a run would follow, so they fail where
no plan can be made, and otherwise name exactly what a run hands over that is stopped by nothing.
-/

namespace BuildWarden

/-- The line of a document that a message writes. -/
def Console.Message.line? : Console.Message → Option String
  | .line text => some text
  | _ => none

/-- The lines of documents that were written. -/
def World.documents (world : World) : List String :=
  world.texts Console.Message.line?

namespace Command

/-- What stands in front of the directory of a plan and of its lines. -/
def captions : List String :=
  ["directory: ", "configure: ", "compile:   ", "post:      "]

namespace Session
variable {session : Session} {record : BuildRecord} {plan : BuildPlan}

private theorem showPlan_eq (session : Session) (record : BuildRecord) (plan : BuildPlan)
    (world : World) :
    session.showPlan record plan world = world.sayAll session.settings
      (.header (record.subject ++ " in [" ++ record.mode.name ++ "] mode") ::
        (List.zipWith (· ++ ·) captions (plan.directory :: plan.lines)).map .line) := by
  unfold showPlan BuildPlan.lines
  split <;> rfl

/-- The directory and the lines are written whatever the settings hide. -/
theorem documents_showPlan (session : Session) (record : BuildRecord) (plan : BuildPlan)
    (world : World) :
    (session.showPlan record plan world).documents =
      world.documents ++ List.zipWith (· ++ ·) captions (plan.directory :: plan.lines) := by
  have written (lines : List String) :
      ((lines.map Console.Message.line).filter (·.shownUnder session.settings)).filterMap
        Console.Message.line? = lines := by
    rw [List.filter_eq_self.mpr, List.filterMap_map]
    · exact List.filterMap_some
    · intro message member
      obtain ⟨line, -, rfl⟩ := List.mem_map.mp member
      rfl
  rw [showPlan_eq, World.documents, World.texts_sayAll, List.filter_cons]
  split
  · exact congrArg (world.documents ++ ·) (written _)
  · exact congrArg (world.documents ++ ·) (written _)

private theorem showAction_eq {action : Action} {spelled : String} {arguments : BuildArguments}
    (named : Action.choices.parse spelled = .ok action)
    (resolved : session.record action arguments = .ok record) (world : World) :
    session.showAction spelled arguments .text world =
      match record.plan session.context with
      | .error fault => (.error fault, world)
      | .ok plan => (.ok (), session.showPlan record plan world) := by
  unfold showAction
  simp only [named, resolved, bind, Except.bind]
  cases record.plan session.context <;> rfl

private theorem resolve_tests : resolve .test {} false false {} .unix =
    .ok { BuildRecord.usual with action := .test } :=
  rfl

private theorem plan_tests : ∃ configure compile,
    BuildRecord.plan { BuildRecord.usual with action := .test } {} =
      .ok ⟨"./build/release", configure, compile, ⟨"src/gumTest", true⟩⟩ :=
  ⟨_, _, rfl⟩

/-- **A dry run and `show` tell what a run does.** All of them fail, alike and without any trace,
where there is no record or no plan. Otherwise a dry run shows the way into the build directory and
the lines, whatever its executor, and touches nothing. A run whose directory can be made and whose
lines all end well hands over these same lines in this directory. And `show` writes the directory
and these lines; there is a fourth one exactly where the run has a post line. -/
theorem show_and_dry_run_foretell (session : Session) {action : Action} {spelled : String}
    (named : Action.choices.parse spelled = .ok action) (arguments : BuildArguments)
    (world : World) :
    (∀ fault, session.record action arguments = .error fault →
      session.showAction spelled arguments .text world = (.error fault, world) ∧
        session.build action arguments world = (.error fault, world)) ∧
    ∀ record, session.record action arguments = .ok record →
      let dry : BuildRecord := { record with dryRun := true }
      let live : BuildRecord := { record with dryRun := false }
      (∀ fault, record.plan session.context = .error fault →
        session.showAction spelled arguments .text world = (.error fault, world) ∧
        ∀ settings executor,
          dry.run settings session.context executor world = (.error fault, world) ∧
          live.run settings session.context executor world = (.error fault, world)) ∧
      ∀ plan, record.plan session.context = .ok plan →
        (∀ settings, ∃ final,
          (∀ executor, dry.run settings session.context executor world = (.ok (), final)) ∧
          final.disk = world.disk ∧ final.calls = world.calls ∧
          final.commands = world.commands ++
            if settings.quiet then [] else ("cd " ++ plan.directory) :: plan.lines) ∧
        (∀ settings (executor : Executor), executor.Obliging →
          (world.disk.makeDirs plan.directory).2 = none →
          ∃ final, live.run settings session.context executor world = (.ok (), final) ∧
            final.handed = world.handed ++ plan.lines.map (·, plan.directory)) ∧
        ∃ final, session.showAction spelled arguments .text world = (.ok (), final) ∧
          final.disk = world.disk ∧ final.calls = world.calls ∧
          final.documents =
            world.documents ++ List.zipWith (· ++ ·) captions (plan.directory :: plan.lines) := by
  refine ⟨fun fault refused => ?_, fun record resolved => ?_⟩
  · constructor
    · unfold showAction
      simp only [named, refused, bind, Except.bind]
    · rw [build, refused]
  · intro dry live
    have shown := showAction_eq named resolved world
    -- a plan does not depend on the switch for dry runs: all three go by the plan of the record
    refine ⟨fun fault unplanned => ?_, fun plan planned => ⟨fun settings => ?_, ?_, ?_⟩⟩
    · have unplanned_dry : dry.plan session.context = .error fault := unplanned
      have unplanned_live : live.plan session.context = .error fault := unplanned
      refine ⟨by rw [shown, unplanned], fun settings executor => ⟨?_, ?_⟩⟩
      · rw [BuildRecord.run, unplanned_dry]
      · rw [BuildRecord.run, unplanned_live]
    · have planned_dry : dry.plan session.context = .ok plan := planned
      exact ⟨_, fun executor => BuildRecord.run_dry planned_dry rfl, world.sayAll_disk _ _,
        world.sayAll_calls _ _, BuildRecord.commands_rehearsal world settings dry plan⟩
    · have planned_live : live.plan session.context = .ok plan := planned
      exact fun settings executor obliging made =>
        BuildRecord.run_obliging obliging planned_live rfl made
    · refine ⟨session.showPlan record plan world, by rw [shown, planned], ?_, ?_,
        documents_showPlan session record plan world⟩
      · simp [showPlan_eq]
      · simp [showPlan_eq]

/-- Tests have a post line, which a dry run, a run and `show` tell alike. -/
theorem show_and_dry_run_foretell_tests :
    let session : Session := { host := {}, configuration := {}, context := {}, settings := {} }
    let tests : BuildRecord := { BuildRecord.usual with action := .test }
    let bare : World := { disk := { tree := .empty } }
    let executor := Executor.always (.ok 0)
    Action.choices.parse "test" = .ok .test ∧ session.record .test {} = .ok tests ∧
      executor.Obliging ∧ ∃ configure compile,
        tests.plan {} = .ok ⟨"./build/release", configure, compile, ⟨"src/gumTest", true⟩⟩ ∧
        (bare.disk.makeDirs "./build/release").2 = none ∧
        (∃ final, BuildRecord.run { tests with dryRun := true } {} {} executor bare =
            (.ok (), final) ∧
          final.commands = ["cd ./build/release", configure, compile, "src/gumTest"]) ∧
        (∃ final, BuildRecord.run { tests with dryRun := false } {} {} executor bare =
            (.ok (), final) ∧
          final.handed = [configure, compile, "src/gumTest"].map (·, "./build/release")) ∧
        ∃ final, session.showAction "test" {} .text bare = (.ok (), final) ∧
          final.documents = ["directory: ./build/release", "configure: " ++ configure,
            "compile:   " ++ compile, "post:      src/gumTest"] := by
  intro session tests bare executor
  have named : Action.choices.parse "test" = .ok .test := rfl
  have resolved : session.record .test {} = .ok tests := resolve_tests
  have obliging : executor.Obliging := fun _ _ _ => ⟨rfl, rfl⟩
  obtain ⟨configure, compile, planned⟩ := plan_tests
  have made : (bare.disk.makeDirs "./build/release").2 = none := by
    have steps : Disk.steps "./build/release" = [".", "build", "release"] := by decide
    have relative : Path.isAbsolute "./build/release" = false := by decide
    simp [bare, Disk.makeDirs, steps, relative, Disk.ensureDirs, Disk.makeDir, Disk.ensureDir,
      Disk.follow, Tree.at?, Tree.find?, Tree.hasDirAt, Tree.put, Tree.alterAt, Tree.alter,
      Tree.place]
  obtain ⟨-, told⟩ := (show_and_dry_run_foretell session named {} bare).2 tests resolved
  obtain ⟨dry, live, shown⟩ := told _ planned
  obtain ⟨rehearsed, same, -, -, commands⟩ := dry {}
  obtain ⟨final, ran, handed⟩ := live {} executor obliging made
  obtain ⟨read, written, -, -, documents⟩ := shown
  exact ⟨named, resolved, obliging, configure, compile, planned, made,
    ⟨rehearsed, same executor, commands⟩, ⟨final, ran, handed⟩, read, written, documents⟩

/-- A dry run shows lines also where a run cannot make its directory, and so hands none over. -/
theorem dry_run_shows_unmade :
    let blocked : World := { disk := { tree := .leaf "build" (.file [] false) .empty } }
    let executor := Executor.always (.ok 0)
    let dry : BuildRecord := { BuildRecord.usual with dryRun := true }
    resolve .lib {} false true {} .unix = .ok dry ∧
      resolve .lib {} false false {} .unix = .ok BuildRecord.usual ∧
      (dry.run {} {} executor blocked).2.commands ≠ ("cd " ++ dry.directory {}) ::
        (BuildRecord.usual.run {} {} executor blocked).2.handed.map Prod.fst := by
  intro blocked executor dry
  have usual_resolved (dryRun : Bool) : resolve .lib {} false dryRun {} .unix =
      .ok { BuildRecord.usual with dryRun } := by cases dryRun <;> rfl
  obtain ⟨plan, planned, directory⟩ : ∃ plan, BuildRecord.usual.plan {} = .ok plan ∧
      plan.directory = "./build/release" := ⟨_, rfl, by decide⟩
  have refused : (blocked.disk.makeDirs plan.directory).2 = some .notDirectory := by
    have steps : Disk.steps "./build/release" = [".", "build", "release"] := by decide
    have relative : Path.isAbsolute "./build/release" = false := by decide
    simp [blocked, directory, Disk.makeDirs, steps, relative, Disk.ensureDirs, Disk.makeDir,
      Disk.ensureDir, Disk.leadsToDir, Disk.follow, Tree.at?, Tree.find?]
  have planned_dry : dry.plan {} = .ok plan := planned
  obtain ⟨final, ran, calls⟩ := BuildRecord.run_unmade planned rfl refused
  refine ⟨usual_resolved true, usual_resolved false, ?_⟩
  rw [BuildRecord.run_dry planned_dry rfl, ran, BuildRecord.commands_rehearsal, World.handed, calls]
  intro same
  have nothing : plan.lines = [] := (List.cons.inj same).2
  cases nothing

end Session
end Command
end BuildWarden
