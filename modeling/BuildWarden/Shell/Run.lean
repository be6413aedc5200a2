import BuildWarden.Settings.Host
import BuildWarden.Shell.Utilities
/-!
# Running scripts

Commands change the state of a script and end with a status. Scripts and other programs that a
command starts run on their own: what they do to their variables and to the working directory is
gone when they end, and what they do to the disk and the console stays. A script may run for ever,
so a run has a number of steps, and a run that needs more is `Flow.spent`.
-/

namespace BuildWarden.Shell

/-- How a command ends. Its status is in the state that it leaves. -/
inductive Flow where
  | done
  /-- The script ends with the command -/
  | exited
  /-- A signal ends the script -/
  | killed (signal : Nat)
  /-- Loops are left, so many -/
  | left (loops : Nat)
  /-- The loop that is so many further out begins its next pass -/
  | again (loops : Nat)
  /-- The function ends -/
  | returned
  /-- There are no steps left -/
  | spent
  deriving DecidableEq, Repr

namespace Flow

/-- What a flow is outside the script or subshell in which it arose. -/
def outside : Flow → Flow
  | killed signal => .killed signal
  | spent => .spent
  | _ => .done

/-- What a flow is outside the function in which it arose. -/
def outsideFunction : Flow → Flow
  | returned => .done
  | flow => flow

/-- How a loop ends after a pass, unless it goes on. -/
def afterPass : Flow → Option Flow
  | done => none
  | again loops => if loops ≤ 1 then none else some (again (loops - 1))
  | left loops => some (if loops ≤ 1 then done else left (loops - 1))
  | flow => some flow

end Flow

/-- How a command ends, and the state that it leaves. -/
abbrev Outcome := Flow × State

/-- Goes on after a command that is done. -/
def Outcome.andThen (outcome : Outcome) (next : State → Outcome) : Outcome :=
  match outcome with
  | (.done, state) => next state
  | outcome => outcome

namespace State

/-- The state after a command with a status. -/
def ended (state : State) (status : Nat) : State :=
  { state with status }

/-- The state in which a script begins that a program starts with. -/
def begun (state : State) (name : String) (parameters : List String) : State :=
  { state with
    name, parameters
    bindings := state.bindings.filter fun (name, _) => state.exported.contains name
    functions := []
    strict := false
    status := 0 }

/-- The state after something that ran on its own: only what it did to the disk and the console, and
what it read, is left of it. -/
def rejoin (outer inner : State) : State :=
  { outer with
    disk := { inner.disk with here := outer.disk.here }
    console := inner.console
    streams := inner.streams
    status := inner.status }

/-- Gives variables back the values they had, and what programs are given of them. -/
def restore (after before : State) : List String → State
  | [] => after
  | name :: rest =>
    let after := restore after before rest
    let exported := if before.exported.contains name then after.exported
      else after.exported.filter (· != name)
    match before.lookup? name with
    | some value => { after.assign name value with exported }
    | none => { after.forget name with exported }

end State

/-- Ends the script after a command that failed, where that is asked for. -/
def Outcome.checked (tested : Bool) (outcome : Outcome) : Outcome :=
  match outcome with
  | (.done, state) =>
    if state.strict && !tested && state.status != 0 then (.exited, state) else (.done, state)
  | outcome => outcome

/-- A subshell: runs something on its own. -/
def apart (run : State → Outcome) (state : State) : Outcome :=
  let (flow, inner) := run state
  (flow.outside, state.rejoin inner)

/-- The passes of a loop over values. -/
def eachPass (pass : String → State → Outcome) : List String → State → Outcome
  | [], state => (.done, state)
  | value :: rest, state =>
    let (flow, state) := pass value state
    match flow.afterPass with
    | some flow => (flow, state)
    | none => eachPass pass rest state

/-- The passes of a loop with a test. The status is that of the last pass. -/
def repeatPass (count : Nat) (goal : Bool) (test pass : State → Outcome) (status : Nat)
    (state : State) : Outcome :=
  match count with
  | 0 => (.spent, state)
  | count + 1 =>
    let (flow, state) := test state
    match flow.afterPass with
    | some flow => (flow, state)
    | none =>
      if (state.status == 0) == goal then
        let (flow, state) := pass state
        match flow.afterPass with
        | some flow => (flow, state)
        | none => repeatPass count goal test pass state.status state
      else (.done, state.ended status)

/-- Runs the complete commands of a script, one after the other. `note` stands in front of what is
said about a fault, and `lines` is the number of lines of the script. -/
def runTokens (count : Nat) (run : Command → State → Outcome) (note : String) (lines : Nat)
    (tokens : Tokens) (state : State) : Outcome :=
  match count with
  | 0 => (.spent, state)
  | count + 1 =>
    match skipLineEnds tokens with
    | [] => (.done, state)
    | tokens =>
      match completeCommand tokens with
      | .error (line, fault) =>
        let line := if line = 0 then lines else line
        (.exited, (state.report line (note ++ fault.message)).ended 2)
      | .ok (command, rest) =>
        Outcome.andThen (run command state) (runTokens count run note lines rest)

/-- Runs the text of a script. -/
def runText (run : Command → State → Outcome) (note text : String) (state : State) : Outcome :=
  let found := tokens (text.length + 1) 1 text.toList
  runTokens (found.length + 1) run note (text.toList.count '\n' + 1) found state

/-- The words for a file that cannot be opened, or cannot be made. -/
def openFault (making : Bool) : OsFault → String
  | .missing | .notDirectory => if making then "Directory nonexistent" else "No such file"
  | fault => fault.words

/-- Where a redirection to a path leads. -/
def channelOf (kind : Redirection) (path : String) (state : State) :
    Except OsFault Channel × State :=
  match path, kind with
  | "/dev/null", _ => (.ok .null, state)
  | "/dev/stdin", .input => (.ok (state.channel 0), state)
  | "/dev/stdout", .output | "/dev/stdout", .append => (.ok (state.channel 1), state)
  | "/dev/stderr", .output | "/dev/stderr", .append => (.ok (state.channel 2), state)
  | _, .input =>
    match state.disk.open? path with
    | .error fault => (.error fault, state)
    | .ok (_, .dir _) => (.ok .null, state)
    | .ok (_, item) =>
      let (index, state) := state.newStream ((Disk.contentOf item).toOption.getD [])
      (.ok (.stream index), state)
  | _, _ =>
    let before := if kind = .append then (state.disk.read path).toOption.getD [] else []
    match state.disk.write path before with
    | .error fault => (.error fault, state)
    | .ok disk =>
      match disk.open? path with
      | .ok (location, _) => (.ok (.file location), { state with disk })
      | .error fault => (.error fault, state)

/-- Makes redirections one after the other, up to one that fails. -/
def redirectAll (capture : Capture) : List Redirect → State → Except String Unit × State
  | [], state => (.ok (), state)
  | redirect :: rest, state =>
    match expandWhole capture redirect.target state with
    | .error message => (.error message, state)
    | .ok (target, state) =>
      if redirect.kind = .duplicate then
        match target.toNat?.bind fun number => state.channels.lookup number, target with
        | some channel, _ => redirectAll capture rest (state.connect redirect.descriptor channel)
        | none, "-" => redirectAll capture rest (state.connect redirect.descriptor .null)
        | none, _ => (.error (target ++ ": Bad file descriptor"), state)
      else
        match channelOf redirect.kind target state with
        | (.ok channel, state) =>
          redirectAll capture rest (state.connect redirect.descriptor channel)
        | (.error fault, state) =>
          let making := redirect.kind != .input
          (.error ((if making then "cannot create " else "cannot open ") ++ target ++ ": "
            ++ openFault making fault), state)

/-- Makes assignments one after the other. -/
def assignAll (capture : Capture) : List (String × Word) → State → Except String State
  | [], state => .ok state
  | (name, word) :: rest, state => do
    let (value, state) ← expandWhole capture word state
    assignAll capture rest (state.assign name value)

/-- Whether a word puts in what a script writes. -/
def hasScript (word : Word) : Bool :=
  word.any fun
    | .script _ _ => true
    | _ => false

/-- The first program of a name in the directories of the search path. -/
def searchProgram (disk : Disk) (searchPath name : String) : Except OsFault String :=
  let directories := (List.splitOn ':' searchPath.toList).map String.ofList
  let candidates := directories.map fun directory =>
    if directory.isEmpty then name else Path.join directory name
  match candidates.find? disk.isProgram with
  | some path => .ok path
  | none => .error (if candidates.any disk.isThere then .denied else .missing)

/-- The program that a command stands for, by its path or by its name. -/
def programOf (state : State) (command : String) : Except OsFault String :=
  if command.isEmpty then .error .missing
  else if command.toList.contains '/' then .ok command
  else searchProgram state.disk ((state.lookup? "PATH").getD "") command

/-- The directory of the programs that belong to the host. -/
def hostDirectory : Location := ["usr", "bin"]

/-- Names of the shell. -/
def shellNames : List String := ["sh", "dash", "bash"]

/-- The names of the programs that belong to the host. -/
def hostPrograms : List String :=
  shellNames ++ ["env", "kill"] ++ Utilities.programs.map (·.1)

/-- A disk with the programs that belong to the host. -/
def withHostPrograms (disk : Disk) : Disk :=
  let made : Disk := (disk.makeDirs ("/" ++ Text.joined "/" hostDirectory)).1
  let tree := hostPrograms.foldl (fun (tree : Tree) name =>
    tree.put (hostDirectory ++ [name]) (.leaf (.file [] true))) made.tree
  let devices : Tree := .leaf "null" (.file [] false) .empty
  { made with tree := (tree.put ["bin"] (.leaf (.link "usr/bin"))).put ["dev"] (.dir devices) }

/-- What a program file is. -/
inductive ProgramFile where
  /-- A program of the host -/
  | host (name : String)
  /-- A file that another program is to run, with one argument in front if there is one -/
  | script (interpreter : String) (argument : Option String)
  | unknown
  deriving DecidableEq, Repr

/-- What a content is as a program: the first line may name another program. -/
def ProgramFile.ofContent (content : Bytes) : ProgramFile :=
  match Text.Utf8.decodeLenientChars (content.takeWhile (· != 10)) with
  | '#' :: '!' :: line =>
    let blank (c : Char) : Bool := c = ' ' || c = '\t'
    let line := line.dropWhile blank
    let interpreter := line.takeWhile (!blank ·)
    let argument := ((line.drop interpreter.length).dropWhile blank).reverse.dropWhile blank
    if interpreter.isEmpty then .unknown
    else
      .script (String.ofList interpreter)
        (if argument.isEmpty then none else some (String.ofList argument.reverse))
  | _ => .unknown

/-- The program at a path. -/
def programAt (disk : Disk) (path : String) : Except OsFault ProgramFile := do
  match ← disk.open? path with
  | (location, .leaf (.file content executable)) =>
    if executable then
      match location.getLast? with
      | some name =>
        if location.dropLast = hostDirectory then .ok (.host name)
        else .ok (ProgramFile.ofContent content)
      | none => .error .denied
    else .error .denied
  | _ => .error .denied

/-- The number of a signal. -/
def signalNumber (text : String) : Nat :=
  match text with
  | "KILL" | "SIGKILL" => 9
  | "INT" | "SIGINT" => 2
  | "HUP" | "SIGHUP" => 1
  | _ => text.toNat?.getD 15

/-- What the shell says of a program that a signal ended. -/
def signalWords (signal : Nat) : String :=
  match signal with
  | 1 => "Hangup"
  | 2 => ""
  | 9 => "Killed"
  | _ => "Terminated"

/-- Ends a process, if it is the script itself. -/
def kill (words : List String) (state : State) : Outcome :=
  let (signal, targets) := match words with
    | "-s" :: signal :: rest => (signal, rest)
    | word :: rest =>
      if word.startsWith "-" then (String.ofList (word.toList.drop 1), rest) else ("TERM", words)
    | [] => ("TERM", [])
  if targets.isEmpty then (.done, (state.report 1 "kill: No process given").ended 2)
  else if !targets.contains "4242" then
    (.done, (state.report 1 "kill: No such process").ended 1)
  else if signalNumber signal = 0 then (.done, state.ended 0)
  else (.killed (signalNumber signal), state)

/-- The status that a word stands for. -/
def statusOf (words : List String) (state : State) : Except String Nat :=
  match words with
  | [] => .ok state.status
  | word :: _ =>
    match word.toNat? with
    | some number => .ok (number % 256)
    | none => .error ("Illegal number: " ++ word)

/-- Splits the assignments in front of a command. -/
def environmentWords : List String → State → List String × State
  | [], state => ([], state)
  | word :: rest, state =>
    match Text.cutAt? '=' word.toList with
    | some (name, value) =>
      let name := String.ofList name
      environmentWords rest
        { state.assign name (String.ofList value) with exported := name :: state.exported }
    | none => (word :: rest, state)

/-- What a word means as a command. -/
inductive Meaning where
  | function
  | builtin
  | program (path : String)

/-- The words for a meaning. -/
def Meaning.words : Meaning → String
  | function => "a shell function"
  | builtin => "a shell builtin"
  | program path => path

/-- What a word means as a command, if it means anything. -/
def meaning (state : State) (word : String) : Option Meaning :=
  if (state.functions.lookup word).isSome then some .function
  else if (Builtins.find? word).isSome then some .builtin
  else
    match programOf state word with
    | .ok path => if state.disk.isProgram path then some (.program path) else none
    | .error _ => none

/-- The words for a program that cannot be started, and the status. -/
def programFault : OsFault → String × Nat
  | .missing | .notDirectory => ("not found", 127)
  | fault => (fault.words, 126)

/-- The content of a script that is to run in place, or why there is none. -/
def sourceOf (state : State) (path : String) : Except String Bytes :=
  if path.toList.contains '/' then
    match state.disk.read path with
    | .ok content => .ok content
    | .error fault => .error ("cannot open " ++ path ++ ": " ++ openFault false fault)
  else
    let directories := List.splitOn ':' ((state.lookup? "PATH").getD "").toList
    let found := directories.findSome? fun directory =>
      (state.disk.read (Path.join (String.ofList directory) path)).toOption
    match found with
    | some content => .ok content
    | none => .error (path ++ ": not found")

mutual

/-- Runs a command. `tested` says that its status is asked for, so that a failure ends nothing. -/
def run (fuel : Nat) (tested : Bool) (command : Command) (state : State) : Outcome :=
  match fuel with
  | 0 => (.spent, state)
  | fuel + 1 =>
    let capture : Capture := fun source state => captured fuel source state
    match command with
    | .nothing => (.done, state)
    | .simple line assignments words redirects =>
      Outcome.checked tested (runSimple fuel tested line assignments words redirects state)
    | .sequence first second =>
      Outcome.andThen (run fuel tested first state) (run fuel tested second)
    | .andThen first second =>
      Outcome.andThen (run fuel true first state) fun state =>
        if state.status = 0 then run fuel tested second state else (.done, state)
    | .orElse first second =>
      Outcome.andThen (run fuel true first state) fun state =>
        if state.status = 0 then (.done, state) else run fuel tested second state
    | .not inside =>
      Outcome.andThen (run fuel true inside state) fun state =>
        (.done, state.ended (if state.status = 0 then 1 else 0))
    | .subshell inside => Outcome.checked tested (apart (run fuel tested inside) state)
    | .pipe first second =>
      let (index, state) := state.newStream []
      let written := apart
        (fun inner => run fuel tested first (inner.connect 1 (.stream index))) state
      Outcome.checked tested (Outcome.andThen written
        (apart fun inner => run fuel tested second (inner.connect 0 (.stream index))))
    | .condition test yes no =>
      Outcome.andThen (run fuel true test state) fun state =>
        if state.status = 0 then run fuel tested yes state
        else if no matches .nothing then (.done, state.ended 0)
        else run fuel tested no state
    | .loop goal test inside =>
      repeatPass fuel goal (run fuel true test) (run fuel tested inside) 0 state
    | .each name words inside =>
      let values : Except String (List String × State) := match words with
        | none => .ok (state.parameters, state)
        | some words => expandFields capture words state
      match values with
      | .error message => (.exited, (state.report 1 message).ended 2)
      | .ok (values, state) =>
        eachPass (fun value state => run fuel tested inside (state.assign name value)) values
          (state.ended 0)
    | .choose word patterns inside others =>
      match expandWhole capture word state with
      | .error message => (.exited, (state.report 1 message).ended 2)
      | .ok (subject, state) =>
        let described := patterns.any fun pattern =>
          match expandWord capture pattern state with
          | .ok (found, _) => (Field.pattern (wholeField found)).accepts subject
          | .error _ => false
        if described then
          if inside matches .nothing then (.done, state.ended 0) else run fuel tested inside state
        else if others matches .nothing then (.done, state.ended 0)
        else run fuel tested others state
    | .function name inside =>
      (.done, { state with
        functions := (name, inside) :: state.functions.filter (·.1 != name), status := 0 })
    | .redirected inside redirects =>
      match redirectAll capture redirects state with
      | (.error message, after) =>
        (.done, (State.report { after with channels := state.channels } 1 message).ended 2)
      | (.ok (), inner) =>
        let (flow, after) := run fuel tested inside inner
        (flow, { after with channels := state.channels })

/-- Runs a simple command: words are expanded, then redirections and assignments are made, then the
first word says what is to run. -/
def runSimple (fuel : Nat) (tested : Bool) (line : Nat) (assignments : List (String × Word))
    (words : List Word) (redirects : List Redirect) (state : State) : Outcome :=
  match fuel with
  | 0 => (.spent, state)
  | fuel + 1 =>
    let capture : Capture := fun source state => captured fuel source state
    match expandFields capture words state with
    | .error message => (.exited, (state.report line message).ended 2)
    | .ok (fields, state) =>
      match redirectAll capture redirects state with
      | (.error message, after) =>
        (.done, (State.report { after with channels := state.channels } line message).ended 2)
      | (.ok (), inner) =>
        match assignAll capture assignments inner with
        | .error message => (.exited, (state.report line message).ended 2)
        | .ok inner =>
          if fields.isEmpty then
            let ran := words.any hasScript || assignments.any fun (_, word) => hasScript word
            (.done, { inner with
              channels := state.channels, status := if ran then inner.status else 0 })
          else
            let names := assignments.map (·.1)
            let (flow, after) := runWords fuel tested line fields
              { inner with exported := names ++ inner.exported }
            let after := if fields = ["exec"] then after
              else { after with channels := state.channels }
            (flow, after.restore state names)

/-- Runs a command by its words. -/
def runWords (fuel : Nat) (tested : Bool) (line : Nat) (words : List String) (state : State) :
    Outcome :=
  match fuel with
  | 0 => (.spent, state)
  | fuel + 1 =>
    match words with
    | [] => (.done, state)
    | name :: arguments =>
      match state.functions.lookup name with
      | some inside =>
        let (flow, after) := run fuel tested inside { state with parameters := arguments }
        (flow.outsideFunction, { after with parameters := state.parameters })
      | none =>
        let counted (make : Nat → Flow) : Outcome :=
          (make ((arguments.head?.bind String.toNat?).getD 1), state.ended 0)
        let leave (flow : Flow) : Outcome :=
          match statusOf arguments state with
          | .ok status => (flow, state.ended status)
          | .error message => (.exited, (state.report line (name ++ ": " ++ message)).ended 2)
        match name, arguments with
        | "exit", _ => leave .exited
        | "return", _ => leave .returned
        | "break", _ => counted .left
        | "continue", _ => counted .again
        | "eval", _ =>
          runText (run fuel tested) "eval: " (Text.joined " " arguments) (state.ended 0)
        | "exec", [] => (.done, state.ended 0)
        | "exec", command :: arguments =>
          match launch fuel command arguments state with
          | .ok (.done, state) => (.exited, state)
          | .ok outcome => outcome
          | .error fault =>
            let (words, status) := programFault fault
            (.exited, (state.report line ("exec: " ++ command ++ ": " ++ words)).ended status)
        | "command", "-v" :: wanted :: _ =>
          match meaning state wanted with
          | some (.program path) => (.done, (state.print (path ++ "\n")).ended 0)
          | some _ => (.done, (state.print (wanted ++ "\n")).ended 0)
          | none => (.done, state.ended 127)
        | "type", wanted :: _ =>
          match meaning state wanted with
          | some found =>
            (.done, (state.print (wanted ++ " is " ++ found.words ++ "\n")).ended 0)
          | none => (.done, (state.print (wanted ++ ": not found\n")).ended 127)
        | "command", _ =>
          let (flow, after) := runWords fuel tested line arguments { state with functions := [] }
          (flow, { after with functions := state.functions })
        | "kill", _ => kill arguments state
        | ".", path :: _ =>
          match sourceOf state path with
          | .ok content =>
            let (flow, after) :=
              runText (run fuel tested) "" (Text.Utf8.decodeLenient content) state
            (flow.outsideFunction, after)
          | .error message => (.exited, (state.report line (".: " ++ message)).ended 2)
        | _, _ =>
          match Builtins.find? name with
          | some builtin =>
            let (status, state) := builtin arguments state
            (if name = "shift" && status = 2 then .exited else .done, state.ended status)
          | none =>
            match launch fuel name arguments state with
            | .ok (.killed signal, state) =>
              let words := signalWords signal
              (.done, (if words.isEmpty then state else state.complain words).ended (128 + signal))
            | .ok outcome => outcome
            | .error fault =>
              let (words, status) := if name.isEmpty then (OsFault.denied.words, 127)
                else programFault fault
              (.done, (state.report line (name ++ ": " ++ words)).ended status)

/-- Starts a program from the shell. A file that no program is named for is run as a script. -/
def launch (fuel : Nat) (name : String) (arguments : List String) (state : State) :
    Except OsFault Outcome :=
  match fuel with
  | 0 => .ok (.spent, state)
  | fuel + 1 =>
    match programOf state name with
    | .error fault => .error fault
    | .ok path =>
      match execute fuel path arguments state with
      | .error .badProgram => .ok (interpret fuel (path :: arguments) state)
      | result => result

/-- Starts the program at a path. It runs on its own. -/
def execute (fuel : Nat) (path : String) (arguments : List String) (state : State) :
    Except OsFault Outcome :=
  match fuel with
  | 0 => .ok (.spent, state)
  | fuel + 1 =>
    match programAt state.disk path with
    | .error fault => .error fault
    | .ok .unknown => .error .badProgram
    | .ok (.script interpreter argument) =>
      execute fuel interpreter (argument.toList ++ path :: arguments) state
    | .ok (.host name) =>
      if shellNames.contains name then .ok (interpret fuel arguments state)
      else if name = "env" then
        .ok (apart (fun inner =>
          match environmentWords arguments inner with
          | ([], inner) => (.done, inner.ended 0)
          | (command :: arguments, inner) =>
            match launch fuel command arguments inner with
            | .ok outcome => outcome
            | .error fault =>
              (.done, (inner.complain ("env: '" ++ command ++ "': " ++ fault.words)).ended
                (programFault fault).2)) state)
      else if name = "kill" then .ok (kill arguments state)
      else
        match Utilities.programs.lookup name with
        | some utility =>
          .ok (apart (fun inner =>
            let (status, inner) := utility arguments inner
            (.done, inner.ended status)) state)
        | none => .error .badProgram

/-- Runs a shell: with a line, with the path of a script, or with what it reads. -/
def interpret (fuel : Nat) (words : List String) (state : State) : Outcome :=
  match fuel with
  | 0 => (.spent, state)
  | fuel + 1 =>
    let (flow, inner) :=
      match words.dropWhile fun word => word.startsWith "-" && word != "-c" with
      | "-c" :: text :: name :: parameters =>
        runText (run fuel false) "" text (state.begun name parameters)
      | ["-c", text] => runText (run fuel false) "" text (state.begun "sh" [])
      | ["-c"] =>
        (.exited, ((state.begun "sh" []).complain "sh: 0: -c requires an argument").ended 2)
      | path :: parameters =>
        match state.disk.read path with
        | .ok content =>
          runText (run fuel false) "" (Text.Utf8.decodeLenient content)
            (state.begun path parameters)
        | .error fault =>
          (.exited, ((state.begun "sh" []).complain
            ("sh: 0: cannot open " ++ path ++ ": " ++ openFault false fault)).ended 2)
      | [] =>
        let (text, inner) := (state.begun "sh" []).readInput
        runText (run fuel false) "" (Text.Utf8.decodeLenient text) inner
    (flow.outside, state.rejoin inner)

/-- Runs a script for what it writes; line ends at the end do not count. -/
def captured (fuel : Nat) (source : String) (state : State) : String × State :=
  match fuel with
  | 0 => ("", state)
  | fuel + 1 =>
    let (index, state) := state.newStream []
    let (_, after) := apart
      (fun inner => runText (run fuel false) "" source (inner.connect 1 (.stream index))) state
    let bytes := after.streams.getD index []
    let kept := (bytes.reverse.dropWhile (· == 10)).reverse
    (Text.Utf8.decodeLenient kept, after)

end

/-- A run has this number of steps at most. -/
def mostSteps : Nat := 10000

end BuildWarden.Shell
