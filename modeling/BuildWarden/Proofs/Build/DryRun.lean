import BuildWarden.Proofs.Build.Pipeline
/-!
# Dry runs

A dry run says what a run would do, and does nothing else: all that it comes to is a list of
messages, made from the plan alone. The commands among them are the way into the build directory and
the lines of the plan. These are the lines that a run hands over when each of them ends well.
-/

namespace BuildWarden

/-- The command that a message shows. -/
def Console.Message.command? : Console.Message → Option String
  | .trace command => some command
  | _ => none

/-- The commands that were shown. -/
def World.commands (world : World) : List String :=
  world.texts Console.Message.command?

/-- The lines that were handed over, and the directories for them. -/
def World.handed (world : World) : List (String × String) :=
  world.calls.map fun call => (call.line, call.directory)

/-- An executor that answers every line with zero, whatever it does to the disk, and does not forge
what was handed over. -/
def Executor.Obliging (executor : Executor) : Prop :=
  ∀ line directory world, (executor line directory world).1 = .ok 0 ∧
    (executor line directory world).2.calls = world.calls

namespace BuildRecord
variable {record : BuildRecord} {settings : Console.Settings} {context : Context}
  {executor : Executor} {world : World} {directory : String} {plan : BuildPlan}

/-! ### Nothing but messages -/

private theorem traced_dry (dry : record.dryRun = true) (command : String) (world : World) :
    record.traced settings command world = world.say settings (.trace command) := by
  simp [traced, dry]

private theorem runLines_dry (dry : record.dryRun = true) (steps : List (String × Bool))
    (world : World) :
    record.runLines settings executor directory steps world =
      (.ok (), world.sayAll settings (steps.map fun step => .trace step.1)) := by
  induction steps generalizing world with
  | nil => rfl
  | cons step rest ih =>
      have first : record.runLine settings executor directory step.1 step.2 world =
          (.ok (), world.say settings (.trace step.1)) := by
        simp [runLine, dry, traced_dry]
      rw [runLines, first]
      exact ih _

/-- What a dry run of a plan says. -/
def rehearsal (record : BuildRecord) (plan : BuildPlan) : List Console.Message :=
  [.notice (record.subject ++ " in [" ++ record.mode.name ++ "] mode"),
    .trace ("cd " ++ plan.directory)] ++ plan.lines.map .trace ++
    [.success (record.subject ++ " done")]

/-- **A dry run says what it would do, and does nothing else.** -/
theorem run_dry (planned : record.plan context = .ok plan) (dry : record.dryRun = true) :
    record.run settings context executor world =
      (.ok (), world.sayAll settings (record.rehearsal plan)) := by
  have entering (world : World) : record.enter settings plan.directory world =
      (.ok (), world.say settings (.trace ("cd " ++ plan.directory))) := by
    simp [enter, dry, traced_dry]
  rw [run, planned]
  simp only [entering, runLines_dry dry, steps_eq_lines planned, rehearsal, World.sayAll,
    List.foldl_append, List.foldl_cons, List.foldl_nil, List.map_map]
  rfl

/-- The commands of a dry run are the way into the directory and the lines of the plan. -/
theorem commands_rehearsal (world : World) (settings : Console.Settings) (record : BuildRecord)
    (plan : BuildPlan) :
    (world.sayAll settings (record.rehearsal plan)).commands =
      world.commands ++
        if settings.quiet then [] else ("cd " ++ plan.directory) :: plan.lines := by
  have shown : ∀ message ∈ record.rehearsal plan,
      message.shownUnder settings = !settings.quiet := by
    intro message member
    simp only [rehearsal, List.mem_append, List.mem_cons, List.mem_map, List.not_mem_nil,
      or_false] at member
    rcases member with ((rfl | rfl) | ⟨line, -, rfl⟩) | rfl <;> rfl
  rw [World.commands, World.texts_sayAll, List.filter_congr shown]
  cases settings.quiet with
  | true => simp [World.commands]
  | false =>
      have lines : (plan.lines.map Console.Message.trace).filterMap Console.Message.command? =
          plan.lines := by
        rw [List.filterMap_map]
        exact List.filterMap_some
      simp [World.commands, rehearsal, lines, List.filterMap_cons, Console.Message.command?]

/-! ### Lines that all end well -/

private theorem handed_ask (obliging : executor.Obliging) (line : String) (world : World) :
    (record.ask settings executor directory line world).2.handed =
      world.handed ++ [(line, directory)] := by
  rw [World.handed, ask, (obliging _ _ _).2]
  simp [World.handOver, World.handed]

/-- Lines that all end well are all handed over. -/
theorem runLines_obliging (obliging : executor.Obliging) (live : record.dryRun = false)
    (lines : List String) (world : World) :
    ∃ final, record.runLines settings executor directory (lines.map (·, true)) world =
        (.ok (), final) ∧
      final.handed = world.handed ++ lines.map (·, directory) := by
  induction lines generalizing world with
  | nil => exact ⟨world, rfl, by simp⟩
  | cons line rest ih =>
      obtain ⟨final, ran, handed⟩ := ih (record.ask settings executor directory line world).2
      refine ⟨final, ?_, ?_⟩
      · rw [List.map_cons, runLines_go live _ (obliging _ _ _).1, ran]
      · rw [handed, handed_ask obliging, List.append_assoc]
        rfl

/-- **A run whose lines all end well hands over the lines of its plan**, in the build directory. -/
theorem run_obliging (obliging : executor.Obliging) (planned : record.plan context = .ok plan)
    (live : record.dryRun = false) (made : (world.disk.makeDirs plan.directory).2 = none) :
    ∃ final, record.run settings context executor world = (.ok (), final) ∧
      final.handed = world.handed ++ plan.lines.map (·, plan.directory) := by
  obtain ⟨last, ran, handed⟩ :=
    runLines_obliging obliging live plan.lines (record.entered settings plan world)
  obtain ⟨final, whole, -, calls⟩ := run_planned planned live made ran
  refine ⟨final, whole, ?_⟩
  rw [World.handed, calls]
  refine handed.trans ?_
  rw [World.handed, entered_calls live made]
  rfl

/-- A run that cannot make its directory hands nothing over. -/
theorem run_unmade {fault : OsFault} (planned : record.plan context = .ok plan)
    (live : record.dryRun = false)
    (refused : (world.disk.makeDirs plan.directory).2 = some fault) :
    ∃ final, record.run settings context executor world = (.error (.os fault), final) ∧
      final.calls = world.calls := by
  rw [run, planned]
  simp only [enter_live live, World.say_disk, refused]
  exact ⟨_, rfl, by simp⟩

end BuildRecord
end BuildWarden
