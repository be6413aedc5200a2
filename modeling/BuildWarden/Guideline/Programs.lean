import BuildWarden.Guideline.Report
import BuildWarden.Shell.Host
/-!
# Checks by programs of the host

The formatter and the documentation linter are programs. The formatter writes the text that a source
should have, or changes the source. The linter writes a line for everything that has no
documentation, and its status counts only if it writes no such line.
-/

namespace BuildWarden.Guideline

/-- What a documentation linter reports: the lines it writes, without blank ones. -/
def findings (output : Bytes) : List String :=
  (Text.lines (Text.Utf8.decodeLenient output)).filterMap Text.nonBlank?

/-- The documentation linter that a line of the shell runs, in a directory. -/
def lineLinter (host : Host) (command directory : String) : DocLinter :=
  fun correct settings world =>
    let line := if correct then command ++ " --correction" else command
    match host.startLine directory line world with
    | (.error fault, world) => (.error (.os fault), world)
    | (.ok ending, world) =>
      let found := findings ending.output
      if found.isEmpty && ending.status != 0 then (.error (.stepFailed ending.status), world)
      else
        (.ok found.length, found.foldl (fun world finding =>
          world.say settings (.notice ("missing doc: [" ++ finding ++ "]"))) world)

/-- Asks the formatter how a source should read. -/
def askFormatter (host : Host) (program : String) (file : SourceFile) (world : World) :
    Except String String × World :=
  match host.start "." program ["-style=file", file.path] world with
  | (.error fault, world) => (.error fault.message, world)
  | (.ok ending, world) =>
    if ending.status = 0 then (.ok (Text.Utf8.decodeLenient ending.output), world)
    else
      (.error ("clang-format failed on " ++ file.path ++ ": "
        ++ Text.trim (Text.Utf8.decodeLenient ending.errors)), world)

/-- Lets the formatter change a source in place. -/
def applyFormatter (host : Host) (program : String) (file : SourceFile) (world : World) :
    Except String Unit × World :=
  match host.start "." program ["-style=file", "-i", file.path] world with
  | (.error fault, world) => (.error fault.message, world)
  | (.ok ending, world) =>
    let world := ending.passAll world
    if ending.status = 0 then (.ok (), world)
    else (.error ("clang-format -i failed on " ++ file.path), world)

/-- The formatter of the host, if it has one. -/
def clangFormatter (host : Host) (program : Option String) : Formatter where
  name := "clang-format"
  available := program.isSome
  reformat := askFormatter host (program.getD "clang-format")
  apply := applyFormatter host (program.getD "clang-format")

/-- The checks of a context, with the programs of the host. -/
def Inspection.ofContext (host : Host) (context : Context) (settings : Console.Settings)
    (graph : ModuleGraph) : Inspection where
  settings := settings
  layout := context.layout
  formatter := clangFormatter host context.tools.clangFormat
  linter := context.tools.docLinter.map fun command => lineLinter host command context.layout.root
  graph := graph

end BuildWarden.Guideline
