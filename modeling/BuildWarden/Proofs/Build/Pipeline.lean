import BuildWarden.Build.Pipeline
import BuildWarden.Proofs.Build.Plan
import BuildWarden.Proofs.Tree.Follow
import BuildWarden.Proofs.World
/-!
# What a build hands over

The lines of a plan are put to an executor that may answer anything. `BuildRecord.answers` is what
it would answer if no answer ever stopped the build; a run asks for these answers one after the
other, in the build directory, up to the first one that is not zero, and ends as the last one it
asked for.
-/

namespace BuildWarden

/-- An executor whose lines touch no file and that does not forge what was handed over. -/
def Executor.TouchesNothing (executor : Executor) : Prop :=
  ∀ line directory world, (executor line directory world).2.disk = world.disk ∧
    (executor line directory world).2.calls = world.calls

/-- An executor that answers every line alike. -/
def Executor.always (answer : Except OsFault Int) : Executor :=
  fun _ _ world => (answer, world)

/-- What an answer means for a build. -/
def verdict : Except OsFault Int → Except Fault Unit
  | .ok status => if status = 0 then .ok () else .error (.stepFailed status)
  | .error fault => .error (.os fault)

private theorem verdict_eq_ok {answer : Except OsFault Int} : verdict answer = .ok
    () ↔ answer = .ok 0 := by
  cases answer with
  | error fault => simp [verdict]
  | ok status => by_cases zero : status = 0 <;> simp [verdict, zero]

/-- The status of a build that a line failed is that of the line. -/
theorem exitCode_of_verdict {answer : Except OsFault Int} {status : Int}
    (failed : verdict answer = .error (.stepFailed status)) :
    answer = .ok status ∧ status ≠ 0 ∧ (Fault.stepFailed status).exitCode = status := by
  cases answer with
  | error fault => simp [verdict] at failed
  | ok given =>
      by_cases zero : given = 0
      · simp [verdict, zero] at failed
      · obtain rfl : given = status := by simpa [verdict, zero] using failed
        exact ⟨rfl, zero, if_neg zero⟩

/-- Of lines with their answers, those that are asked for when the first answer that is not zero
ends it all: `last` is the last one, and all those in front of it were answered with zero. -/
def StopsAt (answers before : List (String × Except OsFault Int))
    (last : String × Except OsFault Int) : Prop :=
  ∃ after, answers = before ++ last :: after ∧ (∀ asked ∈ before, asked.2 = .ok 0) ∧
    (last.2 = .ok 0 → after = [])

private theorem StopsAt.cons {answers before : List (String × Except OsFault Int)}
    {first last : String × Except OsFault Int} (passed : first.2 = .ok 0)
    (stops : StopsAt answers before last) : StopsAt (first :: answers) (first :: before) last := by
  obtain ⟨after, rfl, zeros, ended⟩ := stops
  refine ⟨after, rfl, ?_, ended⟩
  rintro asked (_ | ⟨_, member⟩)
  · exact passed
  · exact zeros asked member

private theorem StopsAt.verdict_eq_ok {answers before : List (String × Except OsFault Int)}
    {last : String × Except OsFault Int} (stops : StopsAt answers before last) :
    verdict last.2 = .ok () ↔ answers = before ++ [last] ∧ ∀ asked ∈ answers, asked.2 = .ok 0 := by
  obtain ⟨after, rfl, zeros, ended⟩ := stops
  rw [BuildWarden.verdict_eq_ok]
  constructor
  · intro zero
    rw [ended zero]
    refine ⟨rfl, fun asked member => ?_⟩
    rcases List.mem_append.mp member with early | late
    · exact zeros asked early
    · rw [List.mem_singleton.mp late]
      exact zero
  · rintro ⟨-, all⟩
    exact all last (by simp)

/-- The lines that are asked for are the first ones. -/
theorem StopsAt.first_lines {answers before : List (String × Except OsFault Int)}
    {last : String × Except OsFault Int} (stops : StopsAt answers before last) :
    (before ++ [last]).map Prod.fst <+: answers.map Prod.fst := by
  obtain ⟨after, rfl, -, -⟩ := stops
  exact ⟨after.map Prod.fst, by simp⟩

namespace BuildRecord
variable {record : BuildRecord} {settings : Console.Settings} {context : Context}
  {executor : Executor} {world : World} {directory line : String} {plan : BuildPlan}

/-- Puts a line to an executor, whatever was answered before. -/
def ask (record : BuildRecord) (settings : Console.Settings) (executor : Executor)
    (directory line : String) (world : World) : Except OsFault Int × World :=
  executor line directory ((record.traced settings line world).handOver line directory)

/-- What an executor answers when lines are put to it one after the other, whatever it answers. -/
def answers (record : BuildRecord) (settings : Console.Settings) (executor : Executor)
    (directory : String) : List String → World → List (String × Except OsFault Int)
  | [], _ => []
  | line :: rest, world =>
    let (answer, world) := record.ask settings executor directory line world
    (line, answer) :: record.answers settings executor directory rest world

/-- The world when the first line of a plan is put to the executor. -/
def entered (record : BuildRecord) (settings : Console.Settings) (plan : BuildPlan)
    (world : World) : World :=
  let title := record.subject ++ " in [" ++ record.mode.name ++ "] mode"
  (record.enter settings plan.directory (world.say settings (.notice title))).2

/-- A line that is tried in a directory that is there, and its answer. -/
def callOf (directory : String) (asked : String × Except OsFault Int) : Call :=
  ⟨asked.1, directory, true⟩

private theorem map_fst_answers (lines : List String) (world : World) :
    (record.answers settings executor directory lines world).map Prod.fst = lines := by
  induction lines generalizing world with
  | nil => rfl
  | cons line rest ih =>
      rw [answers, List.map_cons, ih]

/-- Tracing a command leaves the disk alone. -/
@[simp]
theorem traced_disk (command : String) (world : World) :
    (record.traced settings command world).disk = world.disk := by
  unfold traced
  split <;> simp

/-- Tracing a command calls nothing. -/
@[simp]
theorem traced_calls (command : String) (world : World) :
    (record.traced settings command world).calls = world.calls := by
  unfold traced
  split <;> simp

/-- A line that is checked ends as its answer says. -/
theorem runLine_checked (live : record.dryRun = false) (line : String) (world : World) :
    record.runLine settings executor directory line true world =
      (verdict (record.ask settings executor directory line world).1,
        (record.ask settings executor directory line world).2) := by
  unfold runLine ask
  simp only [live, Bool.false_eq_true, ↓reduceIte]
  split
  next fault final same => simp [same, verdict]
  next status final same =>
    by_cases zero : status = 0 <;> simp [same, verdict, zero]

/-- The lines stop at an answer that is not zero, or with the last line. -/
theorem runLines_stop (live : record.dryRun = false) {first : String} {rest : List String}
    (stop : (record.ask settings executor directory first world).1 = .ok 0 → rest = []) :
    StopsAt (record.answers settings executor directory (first :: rest) world) []
        (first, (record.ask settings executor directory first world).1) ∧
      record.runLines settings executor directory ((first :: rest).map (·, true)) world =
        (verdict (record.ask settings executor directory first world).1,
          (record.ask settings executor directory first world).2) := by
  refine ⟨⟨_, rfl, by simp, fun zero => by rw [stop zero]; rfl⟩, ?_⟩
  rw [List.map_cons, runLines, runLine_checked live]
  split
  next final same =>
    obtain ⟨passed, rfl⟩ := Prod.mk.inj same
    rw [stop (verdict_eq_ok.mp passed), passed]
    rfl
  next => rfl

/-- The lines go on behind an answer that is zero. -/
theorem runLines_go (live : record.dryRun = false) {first : String} (rest : List (String × Bool))
    (passed : (record.ask settings executor directory first world).1 = .ok 0) :
    record.runLines settings executor directory ((first, true) :: rest) world =
      record.runLines settings executor directory rest
        (record.ask settings executor directory first world).2 := by
  rw [runLines, runLine_checked live, verdict_eq_ok.mpr passed]

/-- A run makes its directory, and ends if that is refused. -/
theorem enter_live (live : record.dryRun = false) :
    record.enter settings directory world =
      (match (world.disk.makeDirs directory).2 with
        | none => .ok ()
        | some fault => .error (.os fault),
      { record.traced settings ("cd " ++ directory) world with
        disk := (world.disk.makeDirs directory).1 }) := by
  unfold enter
  simp only [live, Bool.false_eq_true, ↓reduceIte, traced_disk]
  rcases world.disk.makeDirs directory with ⟨disk, _ | fault⟩ <;> rfl

/-- The directory is made before any line runs. -/
theorem enter_made (live : record.dryRun = false)
    (made : (world.disk.makeDirs directory).2 = none) :
    record.enter settings directory world =
      (.ok (), { record.traced settings ("cd " ++ directory) world with
        disk := (world.disk.makeDirs directory).1 }) := by
  rw [enter_live live, made]

section Planned
variable (planned : record.plan context = .ok plan) (live : record.dryRun = false)
  (made : (world.disk.makeDirs plan.directory).2 = none)
include live made

private theorem entered_disk :
    (record.entered settings plan world).disk = (world.disk.makeDirs plan.directory).1 := by
  rw [entered, enter_made live (by rwa [World.say_disk]), World.say_disk]

/-- Entering the build directory calls nothing. -/
theorem entered_calls : (record.entered settings plan world).calls = world.calls := by
  rw [entered, enter_made live (by rwa [World.say_disk])]
  simp

include planned

/-- The first line finds its directory. -/
theorem isDir_entered : (record.entered settings plan world).disk.isDir plan.directory = true := by
  obtain ⟨-, -, -, directory⟩ := plan_eq_ok planned
  rw [entered_disk live made]
  exact Disk.isDir_of_makeDirs (directory ▸ directory_ne_empty record context) made

/-- A planned build is what its lines do, and one more message if they all ran. -/
theorem run_planned {result : Except Fault Unit} {last : World}
    (ran : record.runLines settings executor plan.directory (plan.lines.map (·, true))
      (record.entered settings plan world) = (result, last)) :
    ∃ final, record.run settings context executor world = (result, final) ∧
      final.disk = last.disk ∧ final.calls = last.calls := by
  have entering : record.enter settings plan.directory
      (world.say settings (.notice (record.subject ++ " in [" ++ record.mode.name ++ "] mode"))) =
        (.ok (), record.entered settings plan world) := by
    rw [entered, enter_made live (by rwa [World.say_disk])]
  rw [run, planned]
  simp only [entering, steps_eq_lines planned, ran]
  match result with
  | .error fault => exact ⟨last, rfl, rfl, rfl⟩
  | .ok () => exact ⟨_, rfl, by simp, by simp⟩

end Planned

section Untouched
variable (untouched : executor.TouchesNothing)
include untouched

private theorem ask_disk (line : String) (world : World) :
    (record.ask settings executor directory line world).2.disk = world.disk := by
  rw [ask, (untouched _ _ _).1, World.handOver, traced_disk]

private theorem ask_calls (line : String) (there : world.disk.isDir directory = true) :
    (record.ask settings executor directory line world).2.calls =
      world.calls ++ [⟨line, directory, true⟩] := by
  rw [ask, (untouched _ _ _).2, World.handOver, traced_calls, traced_disk, there]

/-- **Lines run up to the first answer that is not zero**, and what the last line that ran was
answered is how the run ends. -/
theorem runLines_answers (live : record.dryRun = false) (first : String) (rest : List String)
    (there : world.disk.isDir directory = true) :
    ∃ before last final,
      StopsAt (record.answers settings executor directory (first :: rest) world) before last ∧
      record.runLines settings executor directory ((first :: rest).map (·, true)) world =
        (verdict last.2, final) ∧
      final.calls = world.calls ++ (before ++ [last]).map (callOf directory) ∧
      final.disk = world.disk := by
  induction rest generalizing first world with
  | nil =>
      obtain ⟨stops, ran⟩ := runLines_stop live (fun _ => rfl)
      exact ⟨[], _, _, stops, ran, ask_calls untouched first there, ask_disk untouched first world⟩
  | cons second rest ih =>
      by_cases passed : (record.ask settings executor directory first world).1 = .ok 0
      · have same : (record.ask settings executor directory first world).2.disk = world.disk :=
          ask_disk untouched first world
        obtain ⟨before, last, final, stops, ran, handed, kept⟩ := ih second (same ▸ there)
        refine ⟨(first, _) :: before, last, final, stops.cons passed, ?_, ?_, kept.trans same⟩
        · rw [List.map_cons, runLines_go live _ passed, ran]
        · rw [handed, ask_calls untouched first there]
          simp [callOf]
      · obtain ⟨stops, ran⟩ := runLines_stop live (fun zero => (passed zero).elim)
        exact ⟨[], _, _, stops, ran, ask_calls untouched first there,
          ask_disk untouched first world⟩

end Untouched

/-- **A build that is planned makes its directory and hands its lines over there, one after the
other, up to the first answer that is not zero.** It ends as the last line it handed over: well only
if all the lines of the plan were answered with zero, and otherwise with the status of that line,
which is then the status of the program, or with the refusal to run it. A build that cannot be
planned does nothing at all. -/
theorem run_until_failure (record : BuildRecord) (settings : Console.Settings) (context : Context)
    (executor : Executor) (untouched : executor.TouchesNothing) (world : World) :
    (∀ fault, record.plan context = .error fault →
      record.run settings context executor world = (.error fault, world)) ∧
    ∀ plan, record.plan context = .ok plan → record.dryRun = false →
      (world.disk.makeDirs (record.directory context)).2 = none →
      let answers := record.answers settings executor (record.directory context) plan.lines
        (record.entered settings plan world)
      ∃ before last result final,
        StopsAt answers before last ∧
        (before ++ [last]).map Prod.fst <+: plan.lines ∧
        record.run settings context executor world = (result, final) ∧
        final.disk = (world.disk.makeDirs (record.directory context)).1 ∧
        final.disk.isDir (record.directory context) = true ∧
        final.calls = world.calls ++ (before ++ [last]).map (callOf (record.directory context)) ∧
        result = verdict last.2 ∧
        (result = .ok () ↔
          answers = before ++ [last] ∧ ∀ asked ∈ answers, asked.2 = .ok 0) ∧
        ∀ status, result = .error (.stepFailed status) →
          last.2 = .ok status ∧ status ≠ 0 ∧ (Fault.stepFailed status).exitCode = status := by
  refine ⟨fun fault refused => ?_, fun plan planned live made => ?_⟩
  · rw [run, refused]
  · obtain ⟨-, -, -, directory⟩ := plan_eq_ok planned
    rw [← directory] at made ⊢
    intro answers
    have there : (record.entered settings plan world).disk.isDir plan.directory = true :=
      isDir_entered planned live made
    obtain ⟨before, last, next, stops, ran, handed, kept⟩ :=
      runLines_answers untouched live plan.configure
        (plan.compile :: if plan.post.line.isEmpty then [] else [plan.post.line]) there
    obtain ⟨final, whole, disk, calls⟩ := run_planned planned live made ran
    have lines : answers.map Prod.fst = plan.lines := map_fst_answers _ _
    refine ⟨before, last, _, final, stops, lines ▸ stops.first_lines, whole, ?_, ?_, ?_, rfl,
      stops.verdict_eq_ok, fun status => exitCode_of_verdict⟩
    · rw [disk, kept, entered_disk live made]
    · rw [disk, kept, there]
    · rw [calls, handed, entered_calls live made]

/-- A build whose first line ends with status 2, in a directory that was not there. -/
theorem run_until_failure_first_line :
    let bare : World := { disk := { tree := .empty } }
    (Executor.always (.ok 2)).TouchesNothing ∧
      ∃ plan final, usual.plan {} = .ok plan ∧ usual.dryRun = false ∧
        bare.disk.isDir "./build/release" = false ∧
        (bare.disk.makeDirs (usual.directory {})).2 = none ∧
        usual.run {} {} (.always (.ok 2)) bare = (.error (.stepFailed 2), final) ∧
        final.calls = [⟨plan.configure, "./build/release", true⟩] := by
  intro bare
  have untouched : (Executor.always (.ok 2)).TouchesNothing := fun _ _ _ => ⟨rfl, rfl⟩
  obtain ⟨plan, planned⟩ : ∃ plan, usual.plan {} = .ok plan := ⟨_, rfl⟩
  have directory : usual.directory {} = "./build/release" := by decide
  have steps : Disk.steps "./build/release" = [".", "build", "release"] := by decide
  have relative : Path.isAbsolute "./build/release" = false := by decide
  have made : (bare.disk.makeDirs (usual.directory {})).2 = none := by
    simp [bare, directory, Disk.makeDirs, steps, relative, Disk.ensureDirs, Disk.makeDir,
      Disk.ensureDir, Disk.follow, Tree.at?, Tree.find?, Tree.hasDirAt, Tree.put, Tree.alterAt,
      Tree.alter, Tree.place]
  have absent : bare.disk.isDir "./build/release" = false := by
    simp [bare, Disk.isDir, Disk.open?, Disk.locate, Disk.locateFrom, steps, relative, Disk.follow,
      Tree.at?, Tree.find?]
  obtain ⟨before, last, result, final, ⟨after, answers, zeros, -⟩, -, ran, -, -, calls, ended, -⟩ :=
    (run_until_failure usual {} {} _ untouched bare).2 plan planned rfl made
  obtain ⟨rfl, rfl⟩ : before = [] ∧ last = (plan.configure, .ok 2) := by
    cases before with
    | nil => exact ⟨rfl, (List.cons.inj answers).1.symm⟩
    | cons first before =>
        have zero : first.2 = .ok 0 := zeros first (by simp)
        rw [← (List.cons.inj answers).1] at zero
        cases zero
  refine ⟨untouched, plan, final, planned, rfl, absent, made, ?_, ?_⟩
  · rw [ran, ended]
    rfl
  · rw [calls, directory]
    rfl

end BuildRecord
end BuildWarden
