import BuildWarden.Settings.Configuration
/-!
# Tools of a host

A tool is a command that is found as a program: by its name in the directories of the search path,
or at the path it is given by.
-/

namespace BuildWarden

/-- Whether a path leads to a program. -/
def Disk.isProgram (disk : Disk) (path : String) : Bool :=
  match disk.open? path with
  | .ok (_, .leaf (.file _ executable)) => executable
  | _ => false

/-- The working directory as a path. -/
def Disk.herePath (disk : Disk) : String :=
  "/" ++ Text.joined "/" disk.here

/-- A path from the top; single dots in a relative path are dropped. -/
def Disk.absolutePath (disk : Disk) (path : String) : String :=
  if Path.isAbsolute path then path
  else Path.join disk.herePath (Text.joined "/" ((Path.names path).map String.ofList))

/-- Whether a command is given by a path and not by a name alone. -/
def isPath (command : String) : Bool :=
  let (start, _) := Path.opened command
  (Path.names command).length + (if start = .inside then 0 else 1) > 1

/-- Finds the program of a command. -/
def Disk.program? (disk : Disk) (searchPath : String) (command : String) : Option String :=
  if isPath command then
    let path := disk.absolutePath command
    if disk.isProgram path then some path else none
  else
    let directories := (List.splitOn ':' searchPath.toList).map String.ofList
    (directories.map fun directory => Path.join directory command).find? disk.isProgram

namespace Configuration

/-- The context that a configuration gives on a Unix host. -/
def context (configuration : Configuration) (disk : Disk) (searchPath : String) (cores : Nat) :
    Context :=
  let commands := configuration.tools
  let found (command : String) : Option String :=
    (Text.nonBlank? command).bind (disk.program? searchPath)
  { platform := .unix
    cores
    tools := {
      cmake := commands.cmake
      make := commands.make
      python := commands.python
      msbuild := found commands.msbuild
      clangFormat := found commands.clangFormat
      docLinter := Text.nonBlank? commands.docLinter }
    layout := configuration.layout }

end Configuration
end BuildWarden
